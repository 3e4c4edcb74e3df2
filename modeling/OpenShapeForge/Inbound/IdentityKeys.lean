import OpenShapeForge.Inbound.DeliveryIdentity

/-! Which verified bodies have one key source: those whose declared scalars are rendered
alike, and when these are the same scalars as the provider wrote them. -/

namespace OpenShapeForge.Inbound.IdentityKeys
open Js DeliveryIdentity

section Written

/-- A JSON scalar as it is written, a number by its value. -/
inductive Scalar where
  | boolean (value : Bool)
  | number (value : ℚ)
  | text (value : Text)
deriving DecidableEq

def Scalar.ofJson : Json → Option Scalar
  | .boolean value => some (.boolean value)
  | .number value => some (.number value)
  | .text value => some (.text value)
  | _ => none

def walkWritten : Json → List Text → Option Json
  | current, [] => some current
  | .object members, segment :: rest =>
    ((members.find? fun member => member.1 = segment).map Prod.snd).bind fun next => walkWritten next rest
  | _, _ :: _ => none

def scalarWritten (document : Json) (dotted : Text) : Option Scalar := (walkWritten document (segments dotted)).bind Scalar.ofJson

def declaredScalar (body : List UInt8) (dotted : Text) : Option Scalar := (written body).bind fun document => scalarWritten document dotted

/-- Two bodies are one event: the same bytes, or the same scalar at every declared path. -/
def SameEvent (profile : InboundIdentityProfile) (first second : List UInt8) : Prop :=
  match profile.source with
  | .bodyDigest => first = second
  | .bodyField => ∀ field ∈ profile.fields, ∃ scalar, declaredScalar first field = some scalar ∧ declaredScalar second field = some scalar

end Written

section Rendering
variable {N : Type} [JsNumber N] (nearest : ℚ → N)

def spelled (value : Bool) : Text := if value then js "true" else js "false"

def Scalar.rendered : Scalar → Option Text
  | .boolean value => some (spelled value)
  | .number value => if JsNumber.isFinite (nearest value) then some (JsNumber.toText (nearest value)) else none
  | .text value => some value

/-- Two scalars that are written as different ones and shown as one: a string that spells a
number or a truth value, or two numbers that the same double is nearest to. No double is
spelled as a truth value is. -/
def Confused : Scalar → Scalar → Prop
  | .text text, .number value | .number value, .text text => JsNumber.toText (nearest value) = text
  | .text text, .boolean value | .boolean value, .text text => spelled value = text
  | .number first, .number second => first ≠ second ∧ JsNumber.toText (nearest first) = JsNumber.toText (nearest second)
  | .number number, .boolean value | .boolean value, .number number => JsNumber.toText (nearest number) = spelled value
  | _, _ => False

/-- Two bodies that agree at every declared path but for scalars that are confused. -/
def Ambiguous (profile : InboundIdentityProfile) (first second : List UInt8) : Prop :=
  profile.source = .bodyField ∧
  (∀ field ∈ profile.fields, ∃ one two, declaredScalar first field = some one ∧ declaredScalar second field = some two ∧
    (one = two ∨ Confused nearest one two)) ∧
  ∃ field ∈ profile.fields, ∃ one two, declaredScalar first field = some one ∧ declaredScalar second field = some two ∧
    Confused nearest one two

variable {nearest}

theorem spelled_inj {first second : Bool} (same : spelled first = spelled second) : first = second := by
  have different : js "true" ≠ js "false" := by decide
  cases first
  · cases second
    · rfl
    · exact absurd same.symm different
  · cases second
    · exact absurd same different
    · rfl

theorem rendered_alike {one two : Scalar} {first second : Text} (isFirst : one.rendered nearest = some first)
    (isSecond : two.rendered nearest = some second) : first = second ↔ one = two ∨ Confused nearest one two := by
  have shown : ∀ {value : ℚ} {text : Text}, (Scalar.number value).rendered nearest = some text → JsNumber.toText (nearest value) = text := by
    intro value text isShown
    rw [Scalar.rendered] at isShown
    split at isShown
    next => exact Option.some.inj isShown
    next => cases isShown
  cases one with
  | boolean one =>
    cases isFirst
    cases two with
    | boolean two =>
      cases isSecond
      simp only [Confused, or_false, Scalar.boolean.injEq]
      exact ⟨spelled_inj, congrArg spelled⟩
    | number two => simp [Confused, shown isSecond, eq_comm]
    | text two =>
      cases isSecond
      simp [Confused]
  | number one =>
    cases two with
    | boolean two =>
      cases isSecond
      simp [Confused, shown isFirst]
    | number two =>
      simp only [Confused, shown isFirst, shown isSecond, Scalar.number.injEq]
      constructor
      · intro same
        by_cases alike : one = two
        · exact .inl alike
        · exact .inr ⟨alike, same⟩
      · rintro (same | ⟨-, same⟩)
        · subst same
          exact Option.some.inj (isFirst.symm.trans isSecond)
        · exact same
    | text two =>
      cases isSecond
      simp [Confused, shown isFirst]
  | text one =>
    cases isFirst
    cases two with
    | boolean two =>
      cases isSecond
      simp [Confused, eq_comm]
    | number two => simp [Confused, shown isSecond, eq_comm]
    | text two =>
      cases isSecond
      simp [Confused]

end Rendering

section Documents
variable {N : Type} [JsNumber N] (nearest : ℚ → N)

omit [JsNumber N] in
theorem members_value (members : List (Text × Json)) :
    Json.value.members' nearest members = members.map fun member => (member.1, member.2.value nearest) := by
  induction members with
  | nil => rfl
  | cons member rest ih => rw [Json.value.members', ih, List.map_cons]

theorem walk_value : ∀ (path : List Text) (document : Json), walk (document.value nearest) path = (walkWritten document path).map (Json.value nearest)
  | [], document => by cases document <;> rfl
  | segment :: rest, document => by
    cases document with
    | object members =>
      have found : (Value.object (Json.value.members' nearest members)).own? segment =
          ((members.find? fun member => member.1 = segment).map Prod.snd).map (Json.value nearest) := by
        rw [members_value, Value.own?, List.find?_map, Option.map_map, Option.map_map]
        rfl
      rw [Json.value, walk, found, walkWritten]
      cases (members.find? fun member => member.1 = segment).map Prod.snd with
      | none => rfl
      | some next => exact walk_value rest next
    | _ => rfl

theorem scalarAt_value (document : Json) (dotted : Text) :
    scalarAt (document.value nearest) dotted = (scalarWritten document dotted).bind (Scalar.rendered nearest) := by
  rw [scalarAt, walk_value, scalarWritten]
  cases walkWritten document (segments dotted) with
  | none => rfl
  | some reached => cases reached <;> rfl

end Documents

section Pairs
variable {N : Type} [JsNumber N]

theorem stringify_pair (pair : Text × Text) :
    stringify (pairValue (N := N) pair) = unit '[' :: (quoteJson pair.1 ++ (unit ',' :: (quoteJson pair.2 ++ [unit ']']))) := by
  have comma : js "," = [unit ','] := rfl
  have opened : js "[" = [unit '['] := rfl
  have closed : js "]" = [unit ']'] := rfl
  simp [pairValue, stringify, stringify.items', comma, opened, closed]

theorem pair_inj {first second : Text × Text} {later other : Text}
    (same : stringify (pairValue (N := N) first) ++ later = stringify (pairValue (N := N) second) ++ other) : first = second ∧ later = other := by
  rw [stringify_pair, stringify_pair] at same
  simp only [List.cons_append, List.append_assoc, List.cons.injEq, true_and] at same
  obtain ⟨sameField, same⟩ := JsonText.quoteJson_append_inj same
  obtain ⟨sameValue, same⟩ := JsonText.quoteJson_append_inj (List.cons.inj same).2
  exact ⟨Prod.ext sameField sameValue, (List.cons.inj same).2⟩

theorem items_inj : ∀ {first second : List (Text × Text)} {later other : Text}, first.length = second.length →
    stringify.items' (first.map (pairValue (N := N))) ++ later = stringify.items' (second.map (pairValue (N := N))) ++ other → first = second
  | [], [], _, _, _, _ => rfl
  | [one], [two], _, _, _, same => by
    obtain ⟨alike, -⟩ := pair_inj same
    rw [alike]
  | one :: third :: first, two :: fourth :: second, later, other, lengths, same => by
    have split : ∀ (pair next : Text × Text) (rest : List (Text × Text)) (tail : Text),
        stringify.items' ((pair :: next :: rest).map (pairValue (N := N))) ++ tail =
          stringify (pairValue (N := N) pair) ++ (js "," ++ (stringify.items' ((next :: rest).map (pairValue (N := N))) ++ tail)) := by
      intro pair next rest tail
      simp [stringify.items']
    rw [split, split] at same
    obtain ⟨alike, same⟩ := pair_inj same
    rw [alike, items_inj (Nat.succ.inj lengths) (List.append_cancel_left same)]

theorem pairs_inj {first second : List (Text × Text)} (lengths : first.length = second.length)
    (same : stringify (.array (first.map (pairValue (N := N)))) = stringify (.array (second.map (pairValue (N := N))))) : first = second := by
  rw [stringify, stringify, List.append_assoc, List.append_assoc] at same
  exact items_inj lengths (List.append_cancel_left same)

theorem wellFormed_pairs (pairs : List (Text × Text)) : WellFormed (stringify (.array (pairs.map (pairValue (N := N))))) := by
  have literal : ∀ {text : Text}, (text.all fun d => decide (d < 0xD800)) = true → WellFormed text :=
    fun small => wellFormed_of_plain fun d member => plain_of_lt (each_unit small d member)
  have pair : ∀ pair : Text × Text, WellFormed (stringify (pairValue (N := N) pair)) := by
    intro pair
    rw [stringify_pair]
    exact wellFormed_cons (by decide) ((wellFormed_quoteJson pair.1).append
      (wellFormed_cons (by decide) ((wellFormed_quoteJson pair.2).append (literal (by decide)))))
  have items : WellFormed (stringify.items' (pairs.map (pairValue (N := N)))) := by
    induction pairs with
    | nil => rfl
    | cons first rest ih =>
      cases rest with
      | nil => exact pair first
      | cons next rest => exact ((pair first).append (literal (by decide))).append ih
  exact ((literal (by decide)).append items).append (literal (by decide))

end Pairs

section KeySources
variable {N : Type} [JsNumber N] {nearest : ℚ → N} {profile : InboundIdentityProfile} {body first second : List UInt8} {digest : Text}
  {identity one two : SignedDeliveryIdentity}

/-- How a body shows what a declared path leads to. -/
def renderedAt (nearest : ℚ → N) (body : List UInt8) (field : Text) : Option Text :=
  (declaredScalar body field).bind (Scalar.rendered nearest)

theorem identityValues {payload : Value N} : ∀ {fields : List Text} {pairs : List (Text × Text)},
    fields.mapM (identityValue payload) = some pairs →
    pairs = fields.map (fun field => (field, (scalarAt payload field).getD [])) ∧ ∀ field ∈ fields, (scalarAt payload field).isSome = true
  | [], pairs, made => by
    cases made
    exact ⟨rfl, fun _ member => by cases member⟩
  | field :: rest, pairs, made => by
    rw [List.mapM_cons] at made
    obtain ⟨pair, isPair, made⟩ := Option.bind_eq_some_iff.mp made
    obtain ⟨later, isLater, made⟩ := Option.bind_eq_some_iff.mp made
    cases made
    obtain ⟨value, isValue, isPair⟩ := Option.bind_eq_some_iff.mp isPair
    split at isPair
    next => cases isPair
    next =>
      cases isPair
      obtain ⟨sameLater, found⟩ := identityValues isLater
      refine ⟨?_, fun other member => ?_⟩
      · rw [List.map_cons, isValue, ← sameLater]
        rfl
      · rcases List.mem_cons.mp member with same | inRest
        · rw [same, isValue]
          rfl
        · exact found other inRest

theorem read_fields (ofFields : profile.source = .bodyField) (read : readSignedDeliveryIdentity nearest profile body digest = some identity) :
    identity.keySource = js "f:" ++
      stringify (.array ((profile.fields.map fun field => (field, (renderedAt nearest body field).getD [])).map (pairValue (N := N)))) ∧
    ∀ field ∈ profile.fields, (renderedAt nearest body field).isSome = true := by
  unfold readSignedDeliveryIdentity at read
  dsimp only at read
  rw [if_pos (.inl ofFields), ofFields] at read
  obtain ⟨payload, isPayload, read⟩ := Option.bind_eq_some_iff.mp read
  obtain ⟨pairs, isPairs, same⟩ := Option.map_eq_some_iff.mp read
  obtain ⟨json, isWritten, isValue⟩ := Option.map_eq_some_iff.mp isPayload
  have shown : ∀ field, scalarAt payload field = renderedAt nearest body field := by
    intro field
    rw [← isValue, scalarAt_value, renderedAt, declaredScalar, isWritten]
    rfl
  obtain ⟨isList, found⟩ := identityValues isPairs
  simp only [shown] at isList found
  rw [← same, ← isList]
  exact ⟨rfl, found⟩

theorem read_digest (ofDigest : profile.source = .bodyDigest) (read : readSignedDeliveryIdentity nearest profile body digest = some identity) :
    identity.keySource = js "b:" ++ digest := by
  unfold readSignedDeliveryIdentity at read
  dsimp only at read
  rw [ofDigest] at read
  cases read
  rfl

theorem wellFormed_keySource (wellFormed : WellFormed digest) (read : readSignedDeliveryIdentity nearest profile body digest = some identity) :
    WellFormed identity.keySource := by
  cases isSource : profile.source with
  | bodyDigest =>
    rw [read_digest isSource read]
    exact (wellFormed_of_plain (each_unit (by decide))).append wellFormed
  | bodyField =>
    rw [(read_fields isSource read).1]
    exact (wellFormed_of_plain (each_unit (by decide))).append (wellFormed_pairs _)

theorem fields_alike {one' two' : Text} (ofFields : profile.source = .bodyField)
    (isFirst : readSignedDeliveryIdentity nearest profile first one' = some one)
    (isSecond : readSignedDeliveryIdentity nearest profile second two' = some two) :
    one.keySource = two.keySource ↔ ∀ field ∈ profile.fields, renderedAt nearest first field = renderedAt nearest second field := by
  obtain ⟨firstKey, firstFound⟩ := read_fields ofFields isFirst
  obtain ⟨secondKey, secondFound⟩ := read_fields ofFields isSecond
  rw [firstKey, secondKey]
  constructor
  · intro same field member
    have pairs := pairs_inj (by rw [List.length_map, List.length_map]) (List.append_cancel_left same)
    have values := (Prod.mk.inj (List.map_inj_left.mp pairs field member)).2
    obtain ⟨value, isValue⟩ := Option.isSome_iff_exists.mp (firstFound field member)
    obtain ⟨other, isOther⟩ := Option.isSome_iff_exists.mp (secondFound field member)
    rw [isValue, isOther] at values ⊢
    exact congrArg some values
  · intro alike
    have pairs : (profile.fields.map fun field => (field, (renderedAt nearest first field).getD [])) =
        profile.fields.map fun field => (field, (renderedAt nearest second field).getD []) :=
      List.map_congr_left fun field member => by rw [alike field member]
    rw [pairs]

theorem fields_same {one' two' : Text} (ofFields : profile.source = .bodyField)
    (isFirst : readSignedDeliveryIdentity nearest profile first one' = some one)
    (isSecond : readSignedDeliveryIdentity nearest profile second two' = some two) :
    one.keySource = two.keySource ↔ SameEvent profile first second ∨ Ambiguous nearest profile first second := by
  have found : ∀ {body : List UInt8} {digest : Text} {identity : SignedDeliveryIdentity},
      readSignedDeliveryIdentity nearest profile body digest = some identity → ∀ field ∈ profile.fields,
      ∃ scalar text, declaredScalar body field = some scalar ∧ scalar.rendered nearest = some text ∧ renderedAt nearest body field = some text := by
    intro body digest identity read field member
    obtain ⟨text, isText⟩ := Option.isSome_iff_exists.mp ((read_fields ofFields read).2 field member)
    obtain ⟨scalar, isScalar, isRendered⟩ := Option.bind_eq_some_iff.mp isText
    exact ⟨scalar, text, isScalar, isRendered, isText⟩
  rw [fields_alike ofFields isFirst isSecond, SameEvent, ofFields]
  dsimp only
  constructor
  · intro alike
    have each : ∀ field ∈ profile.fields, ∃ a b, declaredScalar first field = some a ∧ declaredScalar second field = some b ∧
        (a = b ∨ Confused nearest a b) := by
      intro field member
      obtain ⟨a, text, isA, rendersA, shownA⟩ := found isFirst field member
      obtain ⟨b, other, isB, rendersB, shownB⟩ := found isSecond field member
      have same : text = other := by
        have shown := alike field member
        rw [shownA, shownB] at shown
        exact Option.some.inj shown
      exact ⟨a, b, isA, isB, (rendered_alike rendersA rendersB).mp same⟩
    by_cases confused : ∃ field ∈ profile.fields, ∃ a b, declaredScalar first field = some a ∧ declaredScalar second field = some b ∧
        Confused nearest a b
    · exact .inr ⟨ofFields, each, confused⟩
    · refine .inl fun field member => ?_
      obtain ⟨a, b, isA, isB, same | mixed⟩ := each field member
      · exact ⟨a, isA, same ▸ isB⟩
      · exact absurd ⟨field, member, a, b, isA, isB, mixed⟩ confused
  · have agree : ∀ field ∈ profile.fields, (∃ a b, declaredScalar first field = some a ∧ declaredScalar second field = some b ∧
        (a = b ∨ Confused nearest a b)) → renderedAt nearest first field = renderedAt nearest second field := by
      rintro field member ⟨a, b, isA, isB, alike⟩
      obtain ⟨a', text, isA', rendersA, shownA⟩ := found isFirst field member
      obtain ⟨b', other, isB', rendersB, shownB⟩ := found isSecond field member
      cases isA.symm.trans isA'
      cases isB.symm.trans isB'
      rw [shownA, shownB, (rendered_alike rendersA rendersB).mpr alike]
    rintro (same | ⟨-, each, -⟩) field member
    · obtain ⟨scalar, isA, isB⟩ := same field member
      exact agree field member ⟨scalar, scalar, isA, isB, .inl rfl⟩
    · exact agree field member (each field member)

end KeySources

end OpenShapeForge.Inbound.IdentityKeys
