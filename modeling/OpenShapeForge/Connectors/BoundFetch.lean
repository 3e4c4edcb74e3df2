import OpenShapeForge.Js.Unicode

/-! The `fetch` a connector package is given: every request and every redirect is checked
against the egress its contract declares. -/

namespace OpenShapeForge.Connectors.BoundFetch
open Js

/-- What is read of a `URL`. -/
structure Url where
  href : Text
  protocol : Text
  hostname : Text
  origin : Text
  deriving DecidableEq

/-- `new URL(text)` and `new URL(location, base)`. -/
structure UrlParser where
  parse : Text → Option Url
  resolve : Text → Url → Option Url

section Hosts
variable [Unicode]

/-- Exact, single-label and arbitrary-depth host grants. -/
def hostAllowed (host : Text) (allowlist : List Text) : Bool :=
  let candidate := Unicode.toLowerCase host
  allowlist.any fun entry =>
    let pattern := Unicode.toLowerCase entry
    if (js "**.").isPrefixOf pattern then
      let suffix := pattern.drop 2
      suffix.isSuffixOf candidate && decide (suffix.length < candidate.length)
    else if (js "*.").isPrefixOf pattern then
      let suffix := pattern.drop 1
      if suffix.isSuffixOf candidate then
        let front := candidate.take (candidate.length - suffix.length)
        decide (0 < front.length) && !front.contains (unit '.')
      else false
    else candidate = pattern

end Hosts

/-- Header names and values, as a package writes them or as `Headers` lists them. -/
abbrev Fields := List (Text × Text)

namespace Headers

/-- `new Headers(init)`, which spells names in lower case. -/
def of (init : Fields) : Fields := init.map fun field => (field.1.map asciiLower, field.2)

def keys (headers : Fields) : List Text := headers.map Prod.fst

def delete (headers : Fields) (name : Text) : Fields := headers.filter fun field => field.1 ≠ name.map asciiLower

end Headers

section Requests
variable {Body : Type}

/-- The members of a `RequestInit` that the platform reads. A body may be left out or be null. -/
structure RequestInit (Body : Type) where
  method : Option Text
  headers : Option Fields
  body : Option (Option Body)

structure Request (Body : Type) where
  url : Text
  method : Text
  headers : Fields
  body : Option Body

inductive Target (Body : Type)
  | text (text : Text)
  | url (url : Url)
  | request (request : Request Body)

/-- The host's `fetch`: its URL parser, and the content type it gives a body. -/
structure Host (Body : Type) where
  urls : UrlParser
  typeOf : Body → Option Text

def isTokenUnit (c : CodeUnit) : Bool :=
  isDigit c || isUpperLetter c || isLowerLetter c || [33, 35, 36, 37, 38, 39, 42, 43, 45, 46, 94, 95, 96, 124, 126].contains c

def forbiddenMethods : List Text := [js "CONNECT", js "TRACE", js "TRACK"]

def normalizedMethods : List Text := [js "DELETE", js "GET", js "HEAD", js "OPTIONS", js "POST", js "PUT"]

/-- The method `Request` makes of the one it is given. -/
def requestMethod (method : Text) : Option Text :=
  let upper := method.map asciiUpper
  if method = [] || !method.all isTokenUnit || forbiddenMethods.contains upper then none
  else some (if normalizedMethods.contains upper then upper else method)

def isRead (method : Text) : Bool := method = js "GET" || method = js "HEAD"

def hrefOf : Target Body → Text
  | .text text => text
  | .url url => url.href
  | .request request => request.url

/-- `new URL` of what a request is for. -/
def urlOf (host : Host Body) (target : Target Body) : Option Url := host.urls.parse (hrefOf target)

def plainRequest (host : Host Body) (target : Target Body) : Option (Request Body) :=
  match target with
  | .request request => some request
  | _ => (urlOf host target).map fun url => ⟨url.href, js "GET", [], none⟩

def methodOver (base : Request Body) : Option Text → Option Text
  | some method => requestMethod method
  | none => some base.method

/-- `new Request(target, init)`. -/
def newRequest (host : Host Body) (target : Target Body) (init : RequestInit Body) : Option (Request Body) := do
  let base ← plainRequest host target
  let method ← methodOver base init.method
  let given := init.body.join
  let body := given.orElse fun _ => base.body
  let headers := (init.headers.map Headers.of).getD base.headers
  let typed :=
    match given.bind host.typeOf with
    | some type => if (Headers.keys headers).contains (js "content-type") then headers else headers ++ [(js "content-type", type)]
    | none => headers
  if body.isSome && isRead method then none else some ⟨base.url, method, typed, body⟩

/-- A request on the network: where it goes, and what it carries. -/
structure Sent (Body : Type) where
  url : Url
  request : Request Body

structure Response where
  status : Nat
  location : Option Text

inductive Failure
  | invalidUrl
  | invalidRequest
  | aborted
  | network
  | denied (message : Text)
  | refused (status : Nat) (code message : Text)
  deriving DecidableEq

/-- What a call of the bound fetch meets: at each hop, an abort before the request or the
answer to it. -/
structure Surroundings where
  production : Bool
  owned : Bool
  aborted : Nat → Bool
  answer : Nat → Option Response

structure Contract where
  slug : Text
  egress : List Text

def protocolDenied (contract : Contract) (url : Url) : Failure :=
  .denied (js "Connector \"" ++ contract.slug ++ js "\" attempted a " ++ url.protocol ++ js " request; only http(s) is permitted.")

def hostDenied (contract : Contract) (url : Url) : Failure :=
  .denied (js "Connector \"" ++ contract.slug ++ js "\" attempted to reach " ++ url.hostname ++
    js ", which its contract does not declare in network.egress.")

def redirectLimit (contract : Contract) : Failure :=
  .denied (js "Connector \"" ++ contract.slug ++ js "\" exceeded the outbound redirect limit.")

def bodyAcrossOrigins (contract : Contract) : Failure :=
  .denied (js "Connector \"" ++ contract.slug ++ js "\" cannot forward a request body or non-read method across origins.")

variable [Unicode]

/-- What `fetchValidatedOutbound` sends, once protocol, TLS, host and owner are in order. -/
def fetchValidatedOutbound (host : Host Body) (contract : Contract) (around : Surroundings) (hop : Nat) (target : Target Body)
    (init : RequestInit Body) : Except Failure (Sent Body) :=
  match urlOf host target with
  | none => .error .invalidUrl
  | some url =>
    if url.protocol ≠ js "https:" ∧ url.protocol ≠ js "http:" then .error (protocolDenied contract url)
    else if url.protocol ≠ js "https:" ∧ (url.protocol ≠ js "http:" ∨ around.production = true) then
      .error (.refused 403 (js "EGRESS_DENIED") (js "Outbound production endpoints require HTTPS."))
    else if !hostAllowed url.hostname contract.egress then .error (hostDenied contract url)
    else if around.aborted hop then .error .aborted
    else if !around.owned && around.production then
      .error (.refused 503 (js "EGRESS_OWNER_REQUIRED") (js "Production outbound requests require a configured egress owner."))
    else
      match newRequest host target init with
      | some request => .ok ⟨url, request⟩
      | none => .error .invalidRequest

/-- The request a method-changing redirect leaves. -/
def rewritten (status : Nat) (init : RequestInit Body) : RequestInit Body :=
  let becomesGet := status = 303 ∨ (status = 301 ∨ status = 302) ∧ init.method.map Unicode.toUpperCase = some (js "POST")
  if becomesGet then
    { method := some (js "GET")
      headers := some (Headers.delete (Headers.delete (Headers.of (init.headers.getD [])) (js "content-type")) (js "content-length"))
      body := none }
  else init

/-- Deletes every header of a copy, name by name. -/
def stripped (init : RequestInit Body) : RequestInit Body :=
  let headers := Headers.of (init.headers.getD [])
  { init with headers := some ((Headers.keys headers).foldl Headers.delete headers) }

def isReadInit (init : RequestInit Body) : Bool := isRead ((init.method.map Unicode.toUpperCase).getD (js "GET"))

def redirected (contract : Contract) (status : Nat) (currentUrl nextUrl : Url) (init : RequestInit Body) :
    Except Failure (RequestInit Body) :=
  let next := rewritten status init
  if nextUrl.origin ≠ currentUrl.origin then
    if next.body.isSome || !isReadInit next then .error (bodyAcrossOrigins contract) else .ok (stripped next)
  else .ok next

/-- The loop over redirects, with so many rounds left: what is sent, and how it ends. -/
def follow (host : Host Body) (contract : Contract) (around : Surroundings) :
    Nat → Nat → Target Body → RequestInit Body → List (Sent Body) × Except Failure Response
  | 0, _, _, _ => ([], .error (redirectLimit contract))
  | left + 1, hop, target, init =>
    match fetchValidatedOutbound host contract around hop target init with
    | .error failure => ([], .error failure)
    | .ok sent =>
      match around.answer hop with
      | none => ([sent], .error .network)
      | some response =>
        if response.status < 300 ∨ 400 ≤ response.status then ([sent], .ok response)
        else
          match response.location with
          | none | some [] => ([sent], .ok response)
          | some (first :: rest) =>
            if hop = 5 then ([sent], .error (redirectLimit contract))
            else
              match urlOf host target with
              | none => ([sent], .error .invalidUrl)
              | some currentUrl =>
                match host.urls.resolve (first :: rest) currentUrl with
                | none => ([sent], .error .invalidUrl)
                | some nextUrl =>
                  match redirected contract response.status currentUrl nextUrl init with
                  | .error failure => ([sent], .error failure)
                  | .ok next =>
                    let after := follow host contract around left (hop + 1) (.url nextUrl) next
                    (sent :: after.1, after.2)

/-- A call of the fetch that `createBoundFetch` returns. -/
def boundFetch (host : Host Body) (contract : Contract) (around : Surroundings) (input : Target Body) (init : RequestInit Body) :
    List (Sent Body) × Except Failure Response :=
  match input with
  | .request request =>
    match newRequest host (.request request) init with
    | none => ([], .error .invalidRequest)
    | some copy =>
      follow host contract around 6 0 (.request copy) ⟨some copy.method, some copy.headers, copy.body.map some⟩
  | _ => follow host contract around 6 0 input init

end Requests

end OpenShapeForge.Connectors.BoundFetch
