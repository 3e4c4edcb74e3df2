import OpenShapeForge.Connectors.BoundFetch

/-! No redirect takes a request outside the declared egress, or what the package wrote to
another origin. -/

namespace OpenShapeForge.Connectors.BoundFetch
open Js

section Hosts
variable [Unicode]

/-- The host is an entry of the allowlist, has one more label than a `*.` entry's suffix, or
has more labels than a `**.` entry's. -/
def HostGranted (host : Text) (allowlist : List Text) : Prop :=
  ∃ entry ∈ allowlist, Unicode.toLowerCase host = Unicode.toLowerCase entry ∨
    (∃ suffix label, Unicode.toLowerCase entry = js "*." ++ suffix ∧ label ≠ [] ∧
      segments (Unicode.toLowerCase host) = label :: segments suffix) ∨
    ∃ suffix labels, Unicode.toLowerCase entry = js "**." ++ suffix ∧ labels ≠ [] ∧
      segments (Unicode.toLowerCase host) = labels ++ segments suffix

theorem granted_of_allowed {host : Text} {allowlist : List Text} (allowed : hostAllowed host allowlist = true) :
    HostGranted host allowlist := by
  unfold hostAllowed at allowed
  obtain ⟨entry, member, matches_entry⟩ := List.any_eq_true.mp allowed
  refine ⟨entry, member, ?_⟩
  dsimp only at matches_entry
  generalize Unicode.toLowerCase host = candidate at matches_entry ⊢
  generalize Unicode.toLowerCase entry = pattern at matches_entry ⊢
  split at matches_entry
  next deep =>
    obtain ⟨suffix, rfl⟩ := List.isPrefixOf_iff_prefix.mp deep
    rw [Bool.and_eq_true] at matches_entry
    obtain ⟨front, isHost⟩ := List.isSuffixOf_iff_suffix.mp matches_entry.1
    have dotted : (js "**." ++ suffix).drop 2 = unit '.' :: suffix := rfl
    rw [dotted] at isHost
    refine .inr (.inr ⟨suffix, segments front, rfl, List.splitOn_ne_nil _ front, ?_⟩)
    rw [← isHost]
    exact List.splitOn_append_cons_self front suffix
  next =>
    split at matches_entry
    next single =>
      obtain ⟨suffix, rfl⟩ := List.isPrefixOf_iff_prefix.mp single
      split at matches_entry
      next ends =>
        obtain ⟨front, isHost⟩ := List.isSuffixOf_iff_suffix.mp ends
        have dotted : (js "*." ++ suffix).drop 1 = unit '.' :: suffix := rfl
        rw [dotted] at isHost matches_entry
        have before : candidate.take (candidate.length - (unit '.' :: suffix).length) = front := by
          rw [← isHost, List.length_append, Nat.add_sub_cancel, List.take_left]
        rw [before, Bool.and_eq_true, decide_eq_true_eq, Bool.not_eq_true', ← Bool.not_eq_true, List.contains_iff_mem] at matches_entry
        refine .inr (.inl ⟨suffix, front, rfl, List.length_pos_iff.mp matches_entry.1, ?_⟩)
        rw [← isHost]
        exact List.splitOn_append_cons_self_of_not_mem matches_entry.2 suffix
      next => cases matches_entry
    next => exact .inl (of_decide_eq_true matches_entry)

end Hosts

section Clean
variable [Unicode] {Body : Type} {host : Host Body} {contract : Contract} {around : Surroundings} {target : Target Body}
  {init : RequestInit Body} {sent : Sent Body} {hop : Nat}

def Request.bare (request : Request Body) : Prop := request.headers = [] ∧ request.body = none ∧ isRead request.method = true

def RequestInit.bare (init : RequestInit Body) : Prop := init.headers = some [] ∧ init.body = none ∧ isReadInit init = true

omit [Unicode] in
theorem isTokenUnit_ascii {c : CodeUnit} (token : isTokenUnit c = true) : c < 128 := by
  simp only [isTokenUnit, isDigit, isUpperLetter, isLowerLetter, Bool.or_eq_true, Bool.and_eq_true, decide_eq_true_eq,
    UInt16.le_iff_toNat_le, UInt16.lt_iff_toNat_lt, List.contains_iff_mem, List.mem_cons, List.not_mem_nil, or_false,
    ← UInt16.toNat_inj, UInt16.reduceToNat] at token ⊢
  omega

theorem requestMethod_read {method made : Text} (makes : requestMethod method = some made)
    (reads : isRead (Unicode.toUpperCase method) = true) : isRead made = true := by
  unfold requestMethod at makes
  dsimp only at makes
  split at makes
  next => cases makes
  next valid =>
    have tokens : method.all isTokenUnit = true := by
      cases all : method.all isTokenUnit with
      | true => rfl
      | false =>
        rw [all] at valid
        exact absurd (by simp) valid
    have ascii : ∀ c ∈ method, c < 128 := fun c member => isTokenUnit_ascii (List.all_eq_true.mp tokens c member)
    rw [Unicode.toUpperCase_ascii method ascii] at reads
    have standard : normalizedMethods.contains (method.map asciiUpper) = true := by
      rw [isRead, Bool.or_eq_true, decide_eq_true_eq, decide_eq_true_eq] at reads
      rcases reads with get | head
      · rw [get]
        decide
      · rw [head]
        decide
    rw [if_pos standard] at makes
    exact Option.some.inj makes ▸ reads

theorem newRequest_bare {url : Url} {request : Request Body} (bare : init.bare) (makes : newRequest host (.url url) init = some request) :
    request.bare := by
  obtain ⟨noHeaders, noBody, reads⟩ := bare
  unfold newRequest at makes
  obtain ⟨base, isBase, makes⟩ := Option.bind_eq_some_iff.mp makes
  obtain ⟨method, isMethod, makes⟩ := Option.bind_eq_some_iff.mp makes
  obtain ⟨parsed, _, rfl⟩ := Option.map_eq_some_iff.mp isBase
  rw [noHeaders, noBody] at makes
  cases Option.some.inj makes
  refine ⟨rfl, rfl, ?_⟩
  unfold isReadInit at reads
  cases given : init.method with
  | none =>
    rw [given] at isMethod
    exact Option.some.inj isMethod ▸ rfl
  | some name =>
    rw [given] at isMethod reads
    exact requestMethod_read isMethod reads

theorem of_fetchValidated (sends : fetchValidatedOutbound host contract around hop target init = .ok sent) :
    urlOf host target = some sent.url ∧ (sent.url.protocol = js "https:" ∨ sent.url.protocol = js "http:") ∧
      hostAllowed sent.url.hostname contract.egress = true ∧ newRequest host target init = some sent.request := by
  unfold fetchValidatedOutbound at sends
  split at sends
  next => cases sends
  next url isUrl =>
    split at sends
    next => cases sends
    next http =>
      split at sends
      next => cases sends
      next =>
        split at sends
        next => cases sends
        next allowed =>
          split at sends
          next => cases sends
          next =>
            split at sends
            next => cases sends
            next =>
              split at sends
              next request makes =>
                cases sends
                refine ⟨isUrl, ?_, ?_, makes⟩
                · rw [not_and_or, not_not, not_not] at http
                  exact http
                · rw [Bool.not_eq_true, Bool.not_eq_false'] at allowed
                  exact allowed
              next => cases sends

omit [Unicode] in
theorem delete_keys : ∀ (names : List Text) (headers : Fields), (∀ field ∈ headers, field.1 ∈ names) →
    (∀ name ∈ names, name.map asciiLower = name) → names.foldl Headers.delete headers = []
  | [], headers, listed, _ => List.eq_nil_iff_forall_not_mem.mpr fun field member => absurd (listed field member) List.not_mem_nil
  | name :: names, headers, listed, lower => by
    rw [List.foldl_cons]
    refine delete_keys names _ (fun field member => ?_) fun other inside => lower other (List.mem_cons_of_mem name inside)
    obtain ⟨inside, apart⟩ := List.mem_filter.mp member
    rw [lower name List.mem_cons_self, decide_eq_true_eq] at apart
    rcases List.mem_cons.mp (listed field inside) with same | later
    · exact absurd same apart
    · exact later

omit [Unicode] in
theorem asciiLower_twice (c : CodeUnit) : asciiLower (asciiLower c) = asciiLower c := by
  unfold asciiLower
  split
  next upper =>
    have lowered : isUpperLetter (c + 32) = false := by
      simp only [isUpperLetter, Bool.and_eq_true, Bool.and_eq_false_iff, decide_eq_true_eq, decide_eq_false_iff_not,
        UInt16.le_iff_toNat_le, UInt16.toNat_add, UInt16.reduceToNat] at upper ⊢
      omega
    rw [lowered]
    rfl
  next => rfl

theorem stripped_bare (noBody : init.body = none) (reads : isReadInit init = true) : (stripped init).bare := by
  refine ⟨congrArg some (delete_keys _ _ (fun field member => List.mem_map_of_mem member) fun name member => ?_), noBody, reads⟩
  obtain ⟨field, inside, rfl⟩ := List.mem_map.mp member
  obtain ⟨written, _, rfl⟩ := List.mem_map.mp inside
  dsimp only
  rw [List.map_map]
  exact List.map_congr_left fun c _ => asciiLower_twice c

theorem rewritten_bare (bare : init.bare) (status : Nat) : (rewritten status init).bare := by
  unfold rewritten
  dsimp only
  split
  next =>
    refine ⟨?_, rfl, ?_⟩
    · rw [bare.1]
      rfl
    · unfold isReadInit
      rw [Option.map_some, Option.getD_some, Unicode.toUpperCase_ascii _ (each_unit (by decide))]
      decide
  next => exact bare

/-- A redirect across origins leaves nothing of the package's in the request, and one that
stays leaves a bare request bare. -/
theorem redirected_bare {status : Nat} {currentUrl nextUrl : Url} {next : RequestInit Body}
    (goes : redirected contract status currentUrl nextUrl init = .ok next) :
    (nextUrl.origin ≠ currentUrl.origin → next.bare) ∧ (init.bare → next.bare) := by
  unfold redirected at goes
  dsimp only at goes
  split at goes
  next apart =>
    split at goes
    next => cases goes
    next carries =>
      cases goes
      rw [Bool.or_eq_true, not_or, Bool.not_eq_true, Option.isSome_eq_false_iff, Option.isNone_iff_eq_none, Bool.not_eq_true,
        Bool.not_eq_false'] at carries
      have isBare := stripped_bare carries.1 carries.2
      exact ⟨fun _ => isBare, fun _ => isBare⟩
  next same =>
    cases goes
    exact ⟨fun apart => absurd apart same, fun bare => rewritten_bare bare status⟩

/-- What the requests of a call keep to, from one that goes to the first origin or is bare on. -/
structure Contained (contract : Contract) (origin : Text) (requests : List (Sent Body)) : Prop where
  granted : ∀ sent ∈ requests, (sent.url.protocol = js "https:" ∨ sent.url.protocol = js "http:") ∧
    HostGranted sent.url.hostname contract.egress
  bare : ∀ {before later : List (Sent Body)} {sent : Sent Body}, requests = before ++ sent :: later →
    sent.url.origin ≠ origin ∨ (∃ earlier ∈ before, earlier.url.origin ≠ origin) → sent.request.bare

theorem contained_nil (origin : Text) : Contained contract origin ([] : List (Sent Body)) :=
  ⟨fun _ never => absurd never List.not_mem_nil, fun never => absurd never (by simp)⟩

theorem Contained.cons {origin : Text} {requests : List (Sent Body)} (contained : Contained contract origin requests)
    (granted : (sent.url.protocol = js "https:" ∨ sent.url.protocol = js "http:") ∧ HostGranted sent.url.hostname contract.egress)
    (own : sent.url.origin ≠ origin → sent.request.bare)
    (after : sent.url.origin ≠ origin → ∀ later ∈ requests, later.request.bare) : Contained contract origin (sent :: requests) where
  granted := by
    intro other member
    rcases List.mem_cons.mp member with rfl | later
    · exact granted
    · exact contained.granted other later
  bare := by
    intro before later other same apart
    cases before with
    | nil =>
      rcases List.cons.inj same with ⟨rfl, _⟩
      rcases apart with elsewhere | ⟨_, never, _⟩
      · exact own elsewhere
      · cases never
    | cons first rest =>
      rcases List.cons.inj same with ⟨rfl, isRest⟩
      rcases apart with elsewhere | ⟨earlier, inside, elsewhere⟩
      · exact contained.bare isRest (.inl elsewhere)
      · rcases List.mem_cons.mp inside with rfl | inRest
        · exact after elsewhere other (isRest ▸ List.mem_append_right rest List.mem_cons_self)
        · exact contained.bare isRest (.inr ⟨earlier, inRest, elsewhere⟩)

theorem follow_cases (left : Nat) :
    (follow host contract around (left + 1) hop target init).1 = [] ∨
    ∃ sent, fetchValidatedOutbound host contract around hop target init = .ok sent ∧
      ((follow host contract around (left + 1) hop target init).1 = [sent] ∨
        ∃ location status nextUrl next, host.urls.resolve location sent.url = some nextUrl ∧
          redirected contract status sent.url nextUrl init = .ok next ∧
          (follow host contract around (left + 1) hop target init).1 =
            sent :: (follow host contract around left (hop + 1) (.url nextUrl) next).1) := by
  rw [follow]
  split
  next => exact .inl rfl
  next sent sends =>
    have isUrl := (of_fetchValidated sends).1
    refine .inr ⟨sent, sends, ?_⟩
    split
    next => exact .inl rfl
    next response _ =>
      split
      next => exact .inl rfl
      next =>
        split
        next => exact .inl rfl
        next => exact .inl rfl
        next first rest hasLocation =>
          split
          next => exact .inl rfl
          next =>
            rw [isUrl]
            dsimp only
            split
            next => exact .inl rfl
            next nextUrl resolves =>
              split
              next => exact .inl rfl
              next next goes => exact .inr ⟨first :: rest, response.status, nextUrl, next, resolves, goes, rfl⟩

theorem follow_length : ∀ (left hop : Nat) (target : Target Body) (init : RequestInit Body),
    (follow host contract around left hop target init).1.length ≤ left
  | 0, _, _, _ => Nat.le_refl 0
  | left + 1, hop, target, init => by
    rcases follow_cases left with none_sent | ⟨sent, _, one | ⟨_, _, nextUrl, next, _, _, goesOn⟩⟩
    · rw [none_sent]
      exact Nat.zero_le _
    · rw [one]
      exact Nat.succ_le_succ (Nat.zero_le left)
    · rw [goesOn]
      exact Nat.succ_le_succ (follow_length left (hop + 1) (.url nextUrl) next)

theorem follow_bare : ∀ (left hop : Nat) (url : Url) {init : RequestInit Body}, init.bare →
    ∀ sent ∈ (follow host contract around left hop (.url url) init).1, sent.request.bare
  | 0, _, _, _, _, _, never => absurd never List.not_mem_nil
  | left + 1, hop, url, init, bare, sent, member => by
    rcases follow_cases left with none_sent | ⟨first, sends, one | ⟨_, _, nextUrl, next, _, goes, goesOn⟩⟩
    · rw [none_sent] at member
      cases member
    · rw [one, List.mem_singleton] at member
      exact member ▸ newRequest_bare bare (of_fetchValidated sends).2.2.2
    · rw [goesOn] at member
      rcases List.mem_cons.mp member with rfl | later
      · exact newRequest_bare bare (of_fetchValidated sends).2.2.2
      · exact follow_bare left (hop + 1) nextUrl ((redirected_bare goes).2 bare) sent later

def Reparses (urls : UrlParser) : Prop := ∀ location base url, urls.resolve location base = some url → urls.parse url.href = some url

theorem follow_contained (reparses : Reparses host.urls) (origin : Text) : ∀ (left hop : Nat) (target : Target Body) (init : RequestInit Body),
    (∀ url, urlOf host target = some url → url.origin ≠ origin → init.bare ∧ ∃ next, target = .url next) →
    Contained contract origin (follow host contract around left hop target init).1
  | 0, _, _, _, _ => contained_nil origin
  | left + 1, hop, target, init, stays => by
    rcases follow_cases left with none_sent | ⟨first, sends, rest⟩
    · rw [none_sent]
      exact contained_nil origin
    · obtain ⟨isUrl, http, allowed, makes⟩ := of_fetchValidated sends
      have own : first.url.origin ≠ origin → first.request.bare := by
        intro apart
        obtain ⟨bare, url, rfl⟩ := stays first.url isUrl apart
        exact newRequest_bare bare makes
      rcases rest with one | ⟨_, _, nextUrl, next, resolves, goes, goesOn⟩
      · rw [one]
        exact (contained_nil origin).cons ⟨http, granted_of_allowed allowed⟩ own fun _ _ never => absurd never List.not_mem_nil
      · rw [goesOn]
        have leaves := redirected_bare goes
        refine (follow_contained reparses origin left (hop + 1) (.url nextUrl) next ?_).cons ⟨http, granted_of_allowed allowed⟩ own ?_
        · intro url parses apart
          have isNext : nextUrl = url := Option.some.inj ((reparses _ _ _ resolves).symm.trans parses)
          refine ⟨?_, nextUrl, rfl⟩
          by_cases same : nextUrl.origin = first.url.origin
          · have already := stays first.url isUrl (same ▸ isNext ▸ apart)
            exact leaves.2 already.1
          · exact leaves.1 same
        · intro apart
          exact follow_bare left (hop + 1) nextUrl (leaves.2 (stays first.url isUrl apart).1)

/-- However the servers answer, a call of the bound fetch sends at most six requests, all to
granted hosts over http or https; and from the first one on that goes to another origin,
none carries a header or a body of the package's or does more than read. -/
theorem redirects_never_widen (reparses : Reparses host.urls) (input : Target Body) (init : RequestInit Body) :
    let requests := (boundFetch host contract around input init).1
    requests.length ≤ 6 ∧
    (∀ sent ∈ requests, (sent.url.protocol = js "https:" ∨ sent.url.protocol = js "http:") ∧
      HostGranted sent.url.hostname contract.egress) ∧
    ∀ {first sent : Sent Body} {before later : List (Sent Body)}, requests.head? = some first → requests = before ++ sent :: later →
      sent.url.origin ≠ first.url.origin ∨ (∃ earlier ∈ before, earlier.url.origin ≠ first.url.origin) → sent.request.bare := by
  have chain : ∀ (target : Target Body) (init : RequestInit Body),
      let requests := (follow host contract around 6 0 target init).1
      requests.length ≤ 6 ∧
      (∀ sent ∈ requests, (sent.url.protocol = js "https:" ∨ sent.url.protocol = js "http:") ∧
        HostGranted sent.url.hostname contract.egress) ∧
      ∀ {first sent : Sent Body} {before later : List (Sent Body)}, requests.head? = some first → requests = before ++ sent :: later →
        sent.url.origin ≠ first.url.origin ∨ (∃ earlier ∈ before, earlier.url.origin ≠ first.url.origin) → sent.request.bare := by
    intro target init requests
    refine ⟨follow_length 6 0 target init, ?_⟩
    have contained : ∀ {first : Sent Body}, requests.head? = some first → Contained contract first.url.origin requests := by
      intro first heads
      have isUrl : urlOf host target = some first.url := by
        rcases follow_cases 5 with none_sent | ⟨sent, sends, one | ⟨_, _, _, _, _, _, goesOn⟩⟩
        · rw [show requests = [] from none_sent] at heads
          cases heads
        · rw [show requests = [sent] from one] at heads
          exact Option.some.inj heads ▸ (of_fetchValidated sends).1
        · rw [show requests = sent :: _ from goesOn] at heads
          exact Option.some.inj heads ▸ (of_fetchValidated sends).1
      refine follow_contained reparses first.url.origin 6 0 target init fun url parses apart => ?_
      exact absurd (congrArg Url.origin (Option.some.inj (parses.symm.trans isUrl))) apart
    refine ⟨fun sent member => ?_, fun heads same apart => (contained heads).bare same apart⟩
    cases heads : requests.head? with
    | none =>
      rw [List.head?_eq_none_iff.mp heads] at member
      cases member
    | some first => exact (contained heads).granted sent member
  dsimp only
  unfold boundFetch
  split
  next request =>
    split
    next => exact ⟨Nat.zero_le _, fun _ never => absurd never List.not_mem_nil, fun never => by cases never⟩
    next copy _ => exact chain _ _
  next => exact chain _ _

end Clean

section CrossOrigin
attribute [local instance] asciiTables

def apiUrl : Url := ⟨js "https://api.example.com/a", js "https:", js "api.example.com", js "https://api.example.com"⟩
def cdnUrl : Url := ⟨js "https://cdn.example.com/b", js "https:", js "cdn.example.com", js "https://cdn.example.com"⟩

def exampleParse (text : Text) : Option Url :=
  if text = apiUrl.href then some apiUrl else if text = cdnUrl.href then some cdnUrl else none

def exampleHost : Host Nat := ⟨⟨exampleParse, fun location _ => exampleParse location⟩, fun _ => some (js "application/json")⟩

theorem exampleParse_reparses : Reparses exampleHost.urls := by
  intro location base url resolves
  change exampleParse location = some url at resolves
  unfold exampleParse at resolves
  split at resolves
  next => exact Option.some.inj resolves ▸ rfl
  next =>
    split at resolves
    next => exact Option.some.inj resolves ▸ rfl
    next => cases resolves

/-- A request with a credential and a body is answered by a redirect to another origin. -/
def redirectedOnce : Surroundings where
  production := false
  owned := false
  aborted := fun _ => false
  answer := fun hop => some (if hop = 0 then ⟨302, some cdnUrl.href⟩ else ⟨200, none⟩)

def posted : RequestInit Nat := ⟨some (js "POST"), some [(js "Authorization", js "Bearer")], some (some 1)⟩

theorem redirects_never_widen_once :
    let requests := (boundFetch exampleHost ⟨js "crm", [js "*.example.com"]⟩ redirectedOnce (.text apiUrl.href) posted).1
    requests.map (fun sent => sent.url) = [apiUrl, cdnUrl] ∧
    (∀ sent ∈ requests, (sent.url.protocol = js "https:" ∨ sent.url.protocol = js "http:") ∧
      HostGranted sent.url.hostname [js "*.example.com"]) :=
  ⟨by decide +kernel, (redirects_never_widen exampleParse_reparses (.text apiUrl.href) posted).2.1⟩

end CrossOrigin

end OpenShapeForge.Connectors.BoundFetch
