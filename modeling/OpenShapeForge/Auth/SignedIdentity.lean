import Mathlib.Data.List.DropRight
import OpenShapeForge.Library.Delimited
import OpenShapeForge.Auth.TrustedContext

/-! When a verified trusted context is the identity that was signed. -/

namespace OpenShapeForge.Auth.SignedIdentity
open Js Library TrustedContext

section Hexadecimal

theorem hexValue_hexDigit : ∀ digit < 16, hexValue (hexDigit digit) = some digit := by decide

theorem hexBytes_hexText (bytes : List UInt8) : hexBytes (hexText bytes) = bytes := by
  induction bytes with
  | nil => rfl
  | cons byte rest ih =>
    have bound := byte.toNat_lt
    have high := hexValue_hexDigit (byte.toNat / 16) (by omega)
    have low := hexValue_hexDigit (byte.toNat % 16) (by omega)
    change hexBytes (hexDigit (byte.toNat / 16) :: hexDigit (byte.toNat % 16) :: hexText rest) = byte :: rest
    have whole : byte.toNat / 16 * 16 + byte.toNat % 16 = byte.toNat := by omega
    simp only [hexBytes, high, low, ih, whole, UInt8.ofNat_toNat]

theorem matches_sign {hmac : Text → Text → List UInt8} {secret one two : Text} (injective : Function.Injective (hmac secret))
    (same : signaturesMatch (sign hmac secret one) (sign hmac secret two) = true) : toWellFormed one = toWellFormed two := by
  simp only [signaturesMatch, sign, hexBytes_hexText, Bool.and_eq_true, beq_iff_eq] at same
  exact injective same.2

end Hexadecimal

section Trimming

theorem trim_eq (text : Text) : trim text = (text.dropWhile isWhitespace).rdropWhile isWhitespace := rfl

theorem trim_trim (text : Text) : trim (trim text) = trim text := by
  have head : (trim text).dropWhile isWhitespace = trim text := by
    have front := List.rdropWhile_prefix isWhitespace (text.dropWhile isWhitespace)
    rw [← trim_eq] at front
    cases inner : trim text with
    | nil => rfl
    | cons c rest =>
      rw [inner] at front
      obtain ⟨tail, whole⟩ := front
      have visible : ¬isWhitespace c = true := by
        have first := List.head?_dropWhile_not isWhitespace text
        rw [← whole, List.cons_append] at first
        exact Bool.eq_false_iff.mp first
      rw [List.dropWhile_cons_of_neg visible]
  rw [trim_eq (trim text), head, trim_eq text, List.rdropWhile_idempotent]

theorem mem_of_mem_trim {text : Text} {c : CodeUnit} (member : c ∈ trim text) : c ∈ text := by
  rw [trim_eq] at member
  exact (List.dropWhile_sublist _).subset ((List.rdropWhile_prefix _ _).subset member)

theorem trimmed_trimmed (values : List Text) : trimmed (trimmed values) = trimmed values := by
  have kept : (trimmed values).map trim = trimmed values := by
    rw [List.map_congr_left (g := id), List.map_id]
    intro value member
    obtain ⟨source, -, trims⟩ := List.mem_map.mp (List.mem_filter.mp member).1
    rw [← trims, trim_trim]
    rfl
  change ((trimmed values).map trim).filter _ = _
  rw [kept, List.filter_eq_self]
  exact fun value member => (List.mem_filter.mp member).2

theorem not_mem_splitDelimited (raw : Option Text) : ∀ value ∈ splitDelimited raw, unit ',' ∉ value := by
  intro value member comma
  obtain ⟨source, piece, trims⟩ := List.mem_map.mp (List.mem_filter.mp member).1
  rw [← trims] at comma
  exact Delimited.not_mem_splitOn (raw.getD []) source piece (mem_of_mem_trim comma)

theorem trimmed_splitDelimited (raw : Option Text) : trimmed (splitDelimited raw) = splitDelimited raw := trimmed_trimmed _

theorem trimmed_filled (values : List Text) : ∀ value ∈ trimmed values, value ≠ [] := fun _ member =>
  of_decide_eq_true (List.mem_filter.mp member).2

end Trimming

section Payloads
variable {fields : PayloadFields}

theorem payloadString_v3 (fields : PayloadFields) : payloadString .v3 fields = js "v3" ++ newline :: (fields.timestamp ++ newline ::
    (fields.tenantId.getD [] ++ newline :: (fields.userId.getD [] ++ newline :: (fields.roles ++ newline ::
      (fields.groups ++ newline :: fields.principalKind.getD []))))) := by
  simp [payloadString, join, Version.text, List.intercalate, List.intersperse]

theorem payloadString_v2 (fields : PayloadFields) : payloadString .v2 fields = js "v2" ++ newline :: (fields.timestamp ++ newline ::
    (fields.tenantId.getD [] ++ newline :: (fields.userId.getD [] ++ newline :: (fields.roles ++ newline :: fields.groups)))) := by
  simp [payloadString, join, Version.text, List.intercalate, List.intersperse]

theorem newline_plain : (isHighSurrogate newline || isLowSurrogate newline) = false := by decide

theorem count_newline (text : Text) : (toWellFormed text).count newline = text.count newline :=
  count_toWellFormed newline_plain (by decide) text

theorem newline_not_mem_timestamp (nowMs : Int) : newline ∉ timestampOf nowMs := by
  have digits : ∀ n : Nat, newline ∉ decimal n := by
    intro n member
    obtain ⟨character, digit, same⟩ := List.mem_map.mp member
    have bounds := Nat.isDigit_of_mem_toDigits (by decide) (by decide) digit
    simp only [Char.isDigit, Bool.and_eq_true, decide_eq_true_eq, UInt32.le_iff_toNat_le] at bounds
    have value := congrArg UInt16.toNat same
    simp only [unit, newline, UInt32.toNat_toUInt16] at value
    change 48 ≤ character.val.toNat ∧ character.val.toNat ≤ 57 at bounds
    change character.val.toNat % 65536 = 10 at value
    omega
  unfold timestampOf
  split
  · exact List.not_mem_cons_of_ne_of_not_mem (by decide) (digits _)
  · exact digits _

theorem parts_of_newlines {first second later other : Text}
    (same : toWellFormed (first ++ newline :: later) = toWellFormed (second ++ newline :: other))
    (counts : first.count newline = second.count newline) :
    toWellFormed first = toWellFormed second ∧ toWellFormed later = toWellFormed other := by
  rw [toWellFormed_append newline_plain, toWellFormed_append newline_plain] at same
  apply Delimited.parts_of_count same
  rw [count_newline, count_newline, counts]

end Payloads

section Binding

structure Binds (returned signed : Identity) : Prop where
  tenantId : returned.tenantId = present signed.tenantId
  userId : returned.userId = present signed.userId
  roles : returned.roles = trimmed signed.roles
  groups : returned.groups = trimmed signed.groups
  principalKind : ∀ kind, returned.principalKind = some kind → readPrincipalKind signed.principalKind = some kind

/-- A value travels with the newlines and the lone surrogates that it was signed with. -/
structure Alike (received sent : Text) : Prop where
  newlines : received.count newline = sent.count newline
  surrogates : replaced received = replaced sent

/-- No value lends a newline to the next one, and no role holds the comma that parts roles. -/
structure Unambiguous (identity : Identity) (headers : Headers) : Prop where
  timestamp : newline ∉ headers.timestamp.getD []
  tenantId : Alike (headers.tenantId.getD []) ((present identity.tenantId).getD [])
  userId : Alike (headers.userId.getD []) ((present identity.userId).getD [])
  user : headers.userId ≠ some []
  roles : Alike (joinDelimited (splitDelimited headers.roles)) (joinDelimited identity.roles)
  groups : Alike (joinDelimited (splitDelimited headers.groups)) (joinDelimited identity.groups)
  roleCommas : ∀ role ∈ trimmed identity.roles, unit ',' ∉ role
  groupCommas : ∀ group ∈ trimmed identity.groups, unit ',' ∉ group

theorem Alike.part {received sent later other : Text} (alike : Alike received sent)
    (same : toWellFormed (sent ++ newline :: later) = toWellFormed (received ++ newline :: other)) :
    received = sent ∧ toWellFormed later = toWellFormed other := by
  obtain ⟨written, rest⟩ := parts_of_newlines same alike.newlines.symm
  exact ⟨eq_of_toWellFormed written.symm alike.surrogates, rest⟩

theorem present_filled (value : Option Text) : present value ≠ some [] := by
  intro empty
  exact of_decide_eq_true (Option.filter_eq_some_iff.mp empty).2 rfl

theorem delimited_inj {raw : Option Text} {values : List Text} (commas : ∀ value ∈ trimmed values, unit ',' ∉ value)
    (same : joinDelimited (splitDelimited raw) = joinDelimited values) : splitDelimited raw = trimmed values := by
  unfold joinDelimited at same
  rw [trimmed_splitDelimited] at same
  exact Delimited.intercalate_inj (not_mem_splitDelimited raw) (trimmed_filled _) commas (trimmed_filled _) same

theorem joinDelimited_of_eq {raw : Option Text} {values : List Text} (same : splitDelimited raw = trimmed values) :
    joinDelimited (splitDelimited raw) = joinDelimited values := by
  unfold joinDelimited
  rw [trimmed_splitDelimited, same]

theorem readPrincipalKind_cases (raw : Option Text) :
    readPrincipalKind raw = none ∨ readPrincipalKind raw = some (js "person") ∨ readPrincipalKind raw = some (js "service") := by
  unfold readPrincipalKind
  split
  next known => exact .inr known
  next => exact .inl rfl

theorem kind_newlines (raw : Option Text) : ((readPrincipalKind raw).getD []).count newline = 0 := by
  rcases readPrincipalKind_cases raw with none | person | service
  · rw [none]; decide
  · rw [person]; decide
  · rw [service]; decide

theorem kind_inj {received sent : Option Text}
    (same : toWellFormed ((readPrincipalKind sent).getD []) = toWellFormed ((readPrincipalKind received).getD [])) :
    readPrincipalKind received = readPrincipalKind sent := by
  rcases readPrincipalKind_cases received with one | one | one <;> rcases readPrincipalKind_cases sent with other | other | other <;>
    rw [one, other] at same ⊢ <;> first | rfl | exact absurd same (by decide)

variable {hmac : Text → Text → List UInt8} {identity : Identity} {secret : Option Text} {nowMs later : Int} {headers : Headers}
  {returned : Identity} {version : Version}

/-- What `applyTrustedContextHeaders` signs. -/
def signedFields (identity : Identity) (nowMs : Int) : PayloadFields :=
  ⟨timestampOf nowMs, present identity.tenantId, present identity.userId, joinDelimited identity.roles, joinDelimited identity.groups,
    readPrincipalKind identity.principalKind⟩

/-- What `verifyTrustedContext` takes to be signed. -/
def receivedFields (headers : Headers) : PayloadFields :=
  ⟨headers.timestamp.getD [], headers.tenantId, headers.userId, joinDelimited (splitDelimited headers.roles),
    joinDelimited (splitDelimited headers.groups), readPrincipalKind headers.principalKind⟩

/-- The second version cannot be what was signed, and by the third one both sides have signed the same text. -/
theorem verified_payload (injective : ∀ secret, Function.Injective (hmac secret)) (named : present identity.tenantId ≠ none)
    (signature : headers.signature = (applyTrustedContextHeaders hmac identity secret nowMs).signature)
    (verifies : verifyTrustedContext hmac headers secret later = some (returned, version)) :
    returned = readIdentityHeaders headers ∧
      toWellFormed (payloadString .v3 (signedFields identity nowMs)) = toWellFormed (payloadString .v3 (receivedFields headers)) := by
  obtain ⟨tenant, isTenant⟩ := Option.ne_none_iff_exists'.mp named
  simp only [verifyTrustedContext, verifyBundle, Option.bind_eq_bind, Option.bind_eq_some_iff] at verifies
  obtain ⟨key, isKey, timestamp, isTimestamp, sent, isSent, parsed, -, holds⟩ := verifies
  split at holds
  next => cases holds
  next =>
    have isText : headers.timestamp.getD [] = timestamp := by
      rw [(Option.filter_eq_some_iff.mp isTimestamp).1]
      rfl
    have isSigned : sent = sign hmac key (payloadString .v3 (signedFields identity nowMs)) := by
      have carried := (Option.filter_eq_some_iff.mp isSent).1
      rw [signature] at carried
      simp only [applyTrustedContextHeaders, isKey, isTenant, Option.bind_some, Option.map_some, Option.some.injEq] at carried
      rw [← carried, signedFields, isTenant]
    subst isSigned
    subst isText
    split at holds
    next agree =>
      have same := matches_sign (injective key) agree
      exact ⟨(congrArg Prod.fst (Option.some.inj holds)).symm, same⟩
    next =>
      split at holds
      next agree =>
        have same := matches_sign (injective key) agree
        rw [payloadString_v3, payloadString_v2] at same
        have versions := (parts_of_newlines same (by decide)).1
        exact absurd versions (by decide)
      next => cases holds

theorem payload_newlines (fields : PayloadFields) : (payloadString .v3 fields).count newline =
    fields.timestamp.count newline + (fields.tenantId.getD []).count newline + (fields.userId.getD []).count newline +
      fields.roles.count newline + fields.groups.count newline + (fields.principalKind.getD []).count newline + 6 := by
  have isVersion : (js "v3").count newline = 0 := by decide
  rw [payloadString_v3]
  simp only [List.count_append, List.count_cons_self, isVersion]
  omega

theorem unambiguous_of_binds (same : toWellFormed (payloadString .v3 (signedFields identity nowMs)) =
      toWellFormed (payloadString .v3 (receivedFields headers)))
    (binds : Binds (readIdentityHeaders headers) identity) : Unambiguous identity headers := by
  have isTenant : headers.tenantId = present identity.tenantId := binds.tenantId
  have isUser : headers.userId = present identity.userId := binds.userId
  have isRoles := joinDelimited_of_eq binds.roles
  have isGroups := joinDelimited_of_eq binds.groups
  have newlines : (payloadString .v3 (signedFields identity nowMs)).count newline =
      (payloadString .v3 (receivedFields headers)).count newline := by
    rw [← count_newline, same, count_newline]
  rw [payload_newlines, payload_newlines] at newlines
  simp only [signedFields, receivedFields, kind_newlines, isTenant, isUser, isRoles, isGroups] at newlines
  have clean : (timestampOf nowMs).count newline = 0 := List.count_eq_zero.mpr (newline_not_mem_timestamp nowMs)
  exact {
    timestamp := List.count_eq_zero.mp (by omega)
    tenantId := by rw [isTenant]; exact ⟨rfl, rfl⟩
    userId := by rw [isUser]; exact ⟨rfl, rfl⟩
    user := by rw [isUser]; exact present_filled _
    roles := by rw [isRoles]; exact ⟨rfl, rfl⟩
    groups := by rw [isGroups]; exact ⟨rfl, rfl⟩
    roleCommas := by rw [← binds.roles]; exact not_mem_splitDelimited headers.roles
    groupCommas := by rw [← binds.groups]; exact not_mem_splitDelimited headers.groups }

theorem binds_of_unambiguous (named : present identity.tenantId ≠ none)
    (same : toWellFormed (payloadString .v3 (signedFields identity nowMs)) =
      toWellFormed (payloadString .v3 (receivedFields headers)))
    (clear : Unambiguous identity headers) : Binds (readIdentityHeaders headers) identity := by
  rw [payloadString_v3, payloadString_v3] at same
  have afterVersion := (parts_of_newlines same rfl).2
  have noNewlines : (signedFields identity nowMs).timestamp.count newline = (receivedFields headers).timestamp.count newline := by
    change (timestampOf nowMs).count newline = (headers.timestamp.getD []).count newline
    rw [List.count_eq_zero.mpr (newline_not_mem_timestamp nowMs), List.count_eq_zero.mpr clear.timestamp]
  have afterTimestamp := (parts_of_newlines afterVersion noNewlines).2
  obtain ⟨sameTenant, afterTenant⟩ := clear.tenantId.part afterTimestamp
  obtain ⟨sameUser, afterUser⟩ := clear.userId.part afterTenant
  obtain ⟨sameRoles, afterRoles⟩ := clear.roles.part afterUser
  obtain ⟨sameGroups, kinds⟩ := clear.groups.part afterRoles
  have text : ∀ {value : Option Text}, value ≠ some [] → value = if value.getD [] = [] then none else some (value.getD []) := by
    intro value filled
    cases value with
    | none => rfl
    | some text =>
      have notEmpty : text ≠ [] := fun empty => filled (congrArg some empty)
      exact (if_neg notEmpty).symm
  have isTenant : headers.tenantId ≠ some [] := by
    obtain ⟨tenant, isTenant⟩ := Option.ne_none_iff_exists'.mp named
    intro empty
    rw [empty, isTenant] at sameTenant
    exact present_filled identity.tenantId (isTenant.trans (congrArg some sameTenant.symm))
  exact {
    tenantId := by
      change headers.tenantId = present identity.tenantId
      rw [text isTenant, sameTenant, ← text (present_filled _)]
    userId := by
      change headers.userId = present identity.userId
      rw [text clear.user, sameUser, ← text (present_filled _)]
    roles := delimited_inj clear.roleCommas sameRoles
    groups := delimited_inj clear.groupCommas sameGroups
    principalKind := by
      intro kind isKind
      exact (kind_inj kinds).symm.trans isKind }

/-- What verifies is the identity that was signed exactly where its values keep their newlines to themselves and its roles hold no comma. -/
theorem verified_binds (injective : ∀ secret, Function.Injective (hmac secret)) (named : present identity.tenantId ≠ none)
    (signature : headers.signature = (applyTrustedContextHeaders hmac identity secret nowMs).signature)
    (verifies : verifyTrustedContext hmac headers secret later = some (returned, version)) :
    Binds returned identity ↔ Unambiguous identity headers := by
  obtain ⟨isReturned, same⟩ := verified_payload injective named signature verifies
  rw [isReturned]
  exact ⟨unambiguous_of_binds same, binds_of_unambiguous named same⟩

end Binding

section Delivered
variable {hmac : Text → Text → List UInt8} {identity : Identity} {secret : Text} {nowMs later : Int}

theorem unit_digit {character : Char} (digit : character.isDigit = true) : isDigit (unit character) = true ∧ (unit character).toNat = character.toNat := by
  simp only [Char.isDigit, Bool.and_eq_true, decide_eq_true_eq, UInt32.le_iff_toNat_le] at digit
  have low : 48 ≤ character.toNat := digit.1
  have high : character.toNat ≤ 57 := digit.2
  have value : (unit character).toNat = character.toNat := by
    show character.val.toUInt16.toNat = character.toNat
    rw [UInt32.toNat_toUInt16]
    exact Nat.mod_eq_of_lt (by show character.toNat < 2 ^ 16; omega)
  refine ⟨?_, value⟩
  simp only [isDigit, Bool.and_eq_true, decide_eq_true_eq, UInt16.le_iff_toNat_le, value]
  exact ⟨low, high⟩

theorem value_of_digits : ∀ {characters : List Char}, (∀ character ∈ characters, character.isDigit = true) → ∀ start : Nat,
    (characters.map unit).foldl (fun (value : Int) c => value * 10 + (c.toNat - 48 : Nat)) start = Nat.ofDigitChars 10 characters start
  | [], _, _ => rfl
  | character :: rest, digits, start => by
    have value := (unit_digit (digits character List.mem_cons_self)).2
    have later := value_of_digits (fun other member => digits other (List.mem_cons_of_mem _ member)) (10 * start + (character.toNat - 48))
    have counted : ((10 * start + (character.toNat - 48) : Nat) : Int) = start * 10 + (character.toNat - 48 : Nat) := by omega
    rw [counted] at later
    rw [List.map_cons, List.foldl_cons, value, Nat.ofDigitChars_cons, later]
    rfl

theorem digit_visible {c : CodeUnit} (digit : isDigit c = true) : isWhitespace c = false ∧ c ≠ unit '-' ∧ c ≠ unit '+' := by
  simp only [isDigit, Bool.and_eq_true, decide_eq_true_eq, UInt16.le_iff_toNat_le] at digit
  have low : 48 ≤ c.toNat := digit.1
  have high : c.toNat ≤ 57 := digit.2
  refine ⟨?_, ?_, ?_⟩
  · simp only [isWhitespace, Bool.or_eq_false_iff, Bool.and_eq_false_iff, decide_eq_false_iff_not, beq_eq_false_iff_ne, ne_eq, UInt16.le_iff_toNat_le, ← UInt16.toNat_inj]
    simp
    omega
  · rintro rfl
    exact absurd low (by decide)
  · rintro rfl
    exact absurd low (by decide)

theorem parseInt_digits {digits : Text} (each : ∀ c ∈ digits, isDigit c = true) (filled : digits ≠ []) (negative : Bool) :
    parseInt (if negative then unit '-' :: digits else digits) =
      some (if negative then -digits.foldl (fun (value : Int) c => value * 10 + (c.toNat - 48 : Nat)) 0
        else digits.foldl (fun (value : Int) c => value * 10 + (c.toNat - 48 : Nat)) 0) := by
  have whole : digits.takeWhile isDigit = digits := List.takeWhile_eq_self_iff.mpr each
  obtain ⟨first, rest, rfl⟩ := List.exists_cons_of_ne_nil filled
  obtain ⟨visible, notMinus, notPlus⟩ := digit_visible (each first List.mem_cons_self)
  have minus : isWhitespace (unit '-') = false := by decide
  cases negative with
  | true => simp [parseInt, minus, whole]
  | false => simp [parseInt, visible, notMinus, notPlus, whole]

/-- The timestamp that is sent is read as the time that it is of. -/
theorem parseInt_timestampOf (nowMs : Int) : parseInt (timestampOf nowMs) = some nowMs := by
  have digits : ∀ character ∈ Nat.toDigits 10 nowMs.natAbs, character.isDigit = true := fun _ member => Nat.isDigit_of_mem_toDigits (by decide) (by decide) member
  have each : ∀ c ∈ decimal nowMs.natAbs, isDigit c = true := by
    intro c member
    obtain ⟨character, isCharacter, rfl⟩ := List.mem_map.mp member
    exact (unit_digit (digits character isCharacter)).1
  have filled : decimal nowMs.natAbs ≠ [] := fun empty => Nat.toDigits_ne_nil (List.map_eq_nil_iff.mp empty)
  have value : (decimal nowMs.natAbs).foldl (fun (value : Int) c => value * 10 + (c.toNat - 48 : Nat)) 0 = nowMs.natAbs := by
    have read := value_of_digits digits 0
    rw [Nat.ofDigitChars_ten_toDigits] at read
    exact read
  have parsed := parseInt_digits each filled (decide (nowMs < 0))
  rw [value] at parsed
  unfold timestampOf
  by_cases below : nowMs < 0
  · simp only [below, decide_true, if_true] at parsed ⊢
    rw [parsed]
    congr 1
    omega
  · simp only [below, decide_false, Bool.false_eq_true, if_false] at parsed ⊢
    rw [parsed]
    congr 1
    omega

theorem splitDelimited_joined {values : List Text} (commas : ∀ value ∈ trimmed values, unit ',' ∉ value) :
    splitDelimited (if joinDelimited values = [] then none else some (joinDelimited values)) = trimmed values := by
  have carried : (if joinDelimited values = [] then none else some (joinDelimited values)).getD [] = joinDelimited values := by
    split
    next empty => rw [empty, Option.getD_none]
    next => rfl
  unfold splitDelimited
  rw [carried]
  by_cases none : trimmed values = []
  · unfold joinDelimited
    rw [none]
    rfl
  · have split : (joinDelimited values).splitOn (unit ',') = trimmed values := List.splitOn_intercalate _ commas none
    rw [split, trimmed_trimmed]

theorem own_signature (digest : ∀ payload, hmac secret payload ≠ []) (payload : Text) :
    sign hmac secret payload ≠ [] ∧ signaturesMatch (sign hmac secret payload) (sign hmac secret payload) = true := by
  have bytes : hexBytes (sign hmac secret payload) = hmac secret (toWellFormed payload) := hexBytes_hexText _
  constructor
  · intro empty
    rw [empty] at bytes
    exact digest _ bytes.symm
  · simp [signaturesMatch, bytes, List.length_pos_iff, digest]

/-- What is signed for a request verifies as the identity of the request, as long as it is in time. -/
theorem applied_verifies (digest : ∀ payload, hmac secret payload ≠ []) (filled : secret ≠ []) (named : present identity.tenantId ≠ none)
    (roleCommas : ∀ role ∈ trimmed identity.roles, unit ',' ∉ role) (groupCommas : ∀ group ∈ trimmed identity.groups, unit ',' ∉ group) :
    verifyTrustedContext hmac (applyTrustedContextHeaders hmac identity (some secret) nowMs) (some secret) later =
      if -TRUSTED_CONTEXT_MAX_CLOCK_SKEW_MS ≤ later - nowMs ∧ later - nowMs ≤ TRUSTED_CONTEXT_MAX_AGE_MS then
        some (⟨present identity.tenantId, present identity.userId, trimmed identity.roles, trimmed identity.groups, readPrincipalKind identity.principalKind⟩, .v3)
      else none := by
  obtain ⟨tenant, isTenant⟩ := Option.ne_none_iff_exists'.mp named
  obtain ⟨carried, own⟩ := own_signature digest (payloadString .v3 (signedFields identity nowMs))
  have kind : readPrincipalKind (readPrincipalKind identity.principalKind) = readPrincipalKind identity.principalKind := by
    rcases readPrincipalKind_cases identity.principalKind with isKind | isKind | isKind <;> rw [isKind] <;> rfl
  have key : (some secret).filter (fun text => text ≠ []) = some secret := by simp [filled]
  have read : readIdentityHeaders (applyTrustedContextHeaders hmac identity (some secret) nowMs) =
      ⟨present identity.tenantId, present identity.userId, trimmed identity.roles, trimmed identity.groups, readPrincipalKind identity.principalKind⟩ := by
    simp only [readIdentityHeaders, applyTrustedContextHeaders, splitDelimited_joined roleCommas, splitDelimited_joined groupCommas, kind]
  have signature : (applyTrustedContextHeaders hmac identity (some secret) nowMs).signature = some (sign hmac secret (payloadString .v3 (signedFields identity nowMs))) := by
    simp only [applyTrustedContextHeaders, key, isTenant, Option.bind_some, Option.map_some, signedFields]
  have timestamp : (applyTrustedContextHeaders hmac identity (some secret) nowMs).timestamp = some (timestampOf nowMs) :=
    congrArg (Option.map fun _ => timestampOf nowMs) signature
  have stated : timestampOf nowMs ≠ [] := by
    intro empty
    have parsed := parseInt_timestampOf nowMs
    rw [empty] at parsed
    cases parsed
  have fields : (⟨timestampOf nowMs, present identity.tenantId, present identity.userId, joinDelimited (trimmed identity.roles), joinDelimited (trimmed identity.groups),
      readPrincipalKind identity.principalKind⟩ : PayloadFields) = signedFields identity nowMs := by
    unfold signedFields joinDelimited
    rw [trimmed_trimmed, trimmed_trimmed]
  unfold verifyTrustedContext verifyBundle
  rw [read, signature, timestamp, key]
  simp only [Option.bind_eq_bind, Option.bind_some, Option.filter_some, stated, carried, ne_eq, not_false_eq_true, decide_true, if_true, parseInt_timestampOf, fields, own]
  by_cases inTime : -TRUSTED_CONTEXT_MAX_CLOCK_SKEW_MS ≤ later - nowMs ∧ later - nowMs ≤ TRUSTED_CONTEXT_MAX_AGE_MS
  · rw [if_pos inTime, if_neg (by omega)]
  · rw [if_neg inTime, if_pos (by omega)]

end Delivered

section Shifted

/-- A code that keeps what it is given apart. -/
def bothBytes (_ text : Text) : List UInt8 := text.flatMap fun c => [UInt8.ofNat (c.toNat / 256), UInt8.ofNat (c.toNat % 256)]

theorem bothBytes_injective (secret : Text) : Function.Injective (bothBytes secret) := by
  intro first
  induction first with
  | nil =>
    intro second same
    cases second with
    | nil => rfl
    | cons c rest => cases same
  | cons c rest ih =>
    intro second same
    cases second with
    | nil => cases same
    | cons other tail =>
      change UInt8.ofNat (c.toNat / 256) :: UInt8.ofNat (c.toNat % 256) :: bothBytes secret rest =
        UInt8.ofNat (other.toNat / 256) :: UInt8.ofNat (other.toNat % 256) :: bothBytes secret tail at same
      obtain ⟨high, inner⟩ := List.cons.inj same
      obtain ⟨low, rests⟩ := List.cons.inj inner
      have sameHigh := congrArg UInt8.toNat high
      have sameLow := congrArg UInt8.toNat low
      rw [UInt8.toNat_ofNat', UInt8.toNat_ofNat'] at sameHigh sameLow
      have bound := c.toNat_lt
      have otherBound := other.toNat_lt
      have sameUnit : c = other := UInt16.toNat_inj.mp (by omega)
      rw [sameUnit, ih rests]

def person : Identity := ⟨some (js "t"), some (js "u"), [js " r "], [], some (js "person")⟩

def personHeaders : Headers := applyTrustedContextHeaders bothBytes person (some (js "s")) 0

theorem verified_binds_person : Binds { person with roles := [js "r"] } person := by
  have verifies : verifyTrustedContext bothBytes personHeaders (some (js "s")) 60000 =
      some ({ person with roles := [js "r"] }, .v3) := by decide
  have clear : Unambiguous person personHeaders := {
    timestamp := by decide
    tenantId := ⟨by decide, by decide⟩
    userId := ⟨by decide, by decide⟩
    user := by decide
    roles := ⟨by decide, by decide⟩
    groups := ⟨by decide, by decide⟩
    roleCommas := by decide
    groupCommas := by decide }
  exact (verified_binds bothBytes_injective (by decide) rfl verifies).mpr clear

/-- Never without a byte. -/
def atLeastOne (secret text : Text) : List UInt8 := 1 :: bothBytes secret text

theorem applied_verifies_person : verifyTrustedContext atLeastOne (applyTrustedContextHeaders atLeastOne person (some (js "s")) 0) (some (js "s")) 60000 =
    some ({ person with roles := [js "r"] }, .v3) := by
  have verifies := @applied_verifies atLeastOne person (js "s") 0 60000 (fun _ => List.cons_ne_nil _ _) (by decide) (by decide) (by decide) (by decide)
  exact verifies.trans (by decide)

def lines : Identity := ⟨some (js "t"), some (js "u" ++ newline :: js "v"), [], [], none⟩

/-- The timestamp takes the tenant with it, and the user's first line becomes the tenant. -/
def shifted : Headers :=
  { applyTrustedContextHeaders bothBytes lines (some (js "s")) 0 with
    timestamp := some (js "0" ++ newline :: js "t"), tenantId := some (js "u"), userId := some (js "v") }

theorem shifted_identity : ¬∀ (hmac : Text → Text → List UInt8) (identity returned : Identity) (secret : Option Text) (nowMs later : Int)
    (headers : Headers) (version : Version), (∀ secret, Function.Injective (hmac secret)) → present identity.tenantId ≠ none →
      headers.signature = (applyTrustedContextHeaders hmac identity secret nowMs).signature →
      verifyTrustedContext hmac headers secret later = some (returned, version) → Binds returned identity := by
  intro binding
  have verifies : verifyTrustedContext bothBytes shifted (some (js "s")) 0 =
      some (⟨some (js "u"), some (js "v"), [], [], none⟩, .v3) := by decide
  have binds := binding bothBytes lines _ (some (js "s")) 0 0 shifted .v3 bothBytes_injective (by decide) rfl verifies
  exact absurd binds.tenantId (by decide)

end Shifted

end OpenShapeForge.Auth.SignedIdentity
