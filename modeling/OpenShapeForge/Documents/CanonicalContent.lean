import OpenShapeForge.Documents.ContentJson
import OpenShapeForge.Js.JsonValues
import OpenShapeForge.Operations.ExactRationals
import OpenShapeForge.Library.Failing

/-! Canonical content JSON is a normal form (canonicalJson in packages/documents/src/content/json.ts):
it is read back as the value it was written of, and two values have one text exactly where they are
the same JSON. -/

namespace OpenShapeForge.Documents.CanonicalContent
open Js Js.JsonText ContentJson
open Library Library.Failing

variable {N : Type} [JsNumber N]

section Sorting
variable {α β : Type}

theorem map_eq_iff_zip (f : α → β) : ∀ {xs ys : List α}, xs.map f = ys.map f ↔ xs.length = ys.length ∧ ∀ pair ∈ xs.zip ys, f pair.1 = f pair.2
  | [], [] => by simp
  | [], _ :: _ => by simp
  | _ :: _, [] => by simp
  | x :: xs, y :: ys => by
    rw [List.map_cons, List.map_cons, List.cons.injEq, map_eq_iff_zip f, List.zip_cons_cons, List.forall_mem_cons, List.length_cons, List.length_cons,
      Nat.add_right_cancel_iff]
    exact and_left_comm

theorem sortMembers_perm (members : List (Text × α)) : (sortMembers members).Perm members := List.perm_insertionSort _ _

theorem ownOrder_perm (members : List (Text × α)) : (ownOrder members).Perm members := by
  unfold ownOrder
  refine ((List.perm_insertionSort _ _).append_right _).trans ?_
  have parts := List.filter_append_perm (fun member : Text × α => (elementKey member.1).isSome) members
  simpa only [Option.not_isSome] using parts

theorem sortMembers_map (f : α → β) (members : List (Text × α)) :
    sortMembers (members.map fun member => (member.1, f member.2)) = (sortMembers members).map fun member => (member.1, f member.2) :=
  (List.map_insertionSort (fun a b : Text × α => textLess b.1 a.1 = false) (fun a b : Text × β => textLess b.1 a.1 = false)
    (fun member => (member.1, f member.2)) members fun _ _ _ _ => Iff.rfl).symm

theorem sortMembers_sorted (members : List (Text × α)) : (sortMembers members).Pairwise fun a b => textLess b.1 a.1 = false := by
  have total : Std.Total fun a b : Text × α => textLess b.1 a.1 = false := ⟨fun a b => by
    by_cases less : textLess b.1 a.1 = true
    · exact .inr (textLess_asymm less)
    · exact .inl (Bool.eq_false_iff.mpr less)⟩
  have trans : IsTrans (Text × α) fun a b => textLess b.1 a.1 = false := ⟨fun _ _ _ => textLess_false_trans⟩
  exact List.pairwise_insertionSort _ members

theorem sortMembers_eq {members others : List (Text × α)} (distinct : (members.map Prod.fst).Nodup) (perm : members.Perm others) :
    sortMembers members = sortMembers others := by
  have sorted : (sortMembers members).Perm (sortMembers others) := ((sortMembers_perm members).trans perm).trans (sortMembers_perm others).symm
  refine sorted.eq_of_pairwise (fun a b inFirst inSecond notLess notMore => ?_) (sortMembers_sorted members) (sortMembers_sorted others)
  have name : a.1 = b.1 := eq_of_textLess_false notMore notLess
  exact List.inj_on_of_nodup_map distinct ((sortMembers_perm members).mem_iff.mp inFirst)
    (perm.mem_iff.mpr ((sortMembers_perm others).mem_iff.mp inSecond)) name

end Sorting

section Equations

omit [JsNumber N] in
theorem sorted_array (items : List (Value N)) : sorted (.array items) = .array (items.map sorted) := by
  have each : ∀ items : List (Value N), sorted.sortedItems items = items.map sorted := by
    intro items
    induction items with
    | nil => rfl
    | cons item rest ih => exact congrArg (sorted item :: ·) ih
  exact congrArg Value.array (each items)

omit [JsNumber N] in
theorem sorted_object (members : Members N) : sorted (.object members) = .object ((sortMembers members).map fun member => (member.1, sorted member.2)) := by
  have each : ∀ members : Members N, sorted.sortedMembers members = members.map fun member => (member.1, sorted member.2) := by
    intro members
    induction members with
    | nil => rfl
    | cons member rest ih => exact congrArg ((member.1, sorted member.2) :: ·) ih
  show Value.object (sortMembers (sorted.sortedMembers members)) = _
  rw [each, sortMembers_map]

theorem parsedValue_array (items : List (Value N)) : parsedValue (.array items) = .array (items.map parsedValue) := by
  have each : ∀ items : List (Value N), parsedValue.parsedItems items = items.map parsedValue := by
    intro items
    induction items with
    | nil => rfl
    | cons item rest ih => exact congrArg (parsedValue item :: ·) ih
  exact congrArg Value.array (each items)

theorem parsedValue_object (members : Members N) :
    parsedValue (.object members) = .object (ownOrder ((sortMembers members).map fun member => (member.1, parsedValue member.2))) := by
  have each : ∀ members : Members N, parsedValue.parsedMembers members = members.map fun member => (member.1, parsedValue member.2) := by
    intro members
    induction members with
    | nil => rfl
    | cons member rest ih => exact congrArg ((member.1, parsedValue member.2) :: ·) ih
  show Value.object (ownOrder (sortMembers (parsedValue.parsedMembers members))) = _
  rw [each, sortMembers_map]

theorem isJson_sorted (value : Value N) : IsJson (sorted value) ↔ IsJson value := by
  induction value using Value.onParts with
  | undefined | null | boolean | number | text | date | builtin => exact Iff.rfl
  | array items each =>
    rw [sorted_array]
    constructor
    · intro isJson
      cases isJson with
      | array isItem => exact .array fun item member => (each item member).mp (isItem _ (List.mem_map_of_mem member))
    · intro isJson
      cases isJson with
      | array isItem => exact .array (List.forall_mem_map.mpr fun item member => (each item member).mpr (isItem item member))
  | object members each =>
    rw [sorted_object]
    constructor
    · intro isJson
      cases isJson with
      | object isMember =>
        exact .object fun member inMembers => (each member inMembers).mp
          (isMember _ (List.mem_map_of_mem ((sortMembers_perm members).mem_iff.mpr inMembers)))
    · intro isJson
      cases isJson with
      | object isMember =>
        refine .object (List.forall_mem_map.mpr fun member inSorted => ?_)
        have inMembers := (sortMembers_perm members).mem_iff.mp inSorted
        exact (each member inMembers).mpr (isMember member inMembers)

omit [JsNumber N] in
theorem named_sorted (value : Value N) (named : Named value) : Named (sorted value) := by
  induction value using Value.onParts with
  | undefined | null | boolean | number | text | date | builtin => exact named
  | array items each =>
    cases named with
    | array namedItem =>
      rw [sorted_array]
      exact .array (List.forall_mem_map.mpr fun item member => each item member (namedItem item member))
  | object members each =>
    cases named with
    | object distinct namedMember =>
      rw [sorted_object]
      refine .object ?_ (List.forall_mem_map.mpr fun member inSorted => ?_)
      · rw [List.map_map]
        exact ((sortMembers_perm members).map Prod.fst).nodup_iff.mpr distinct
      · have inMembers := (sortMembers_perm members).mem_iff.mp inSorted
        exact each member inMembers (namedMember member inMembers)

end Equations

section Serializing

theorem stringify_items : ∀ items : List (Value N), stringify.items' items = join (js ",") (items.map stringify)
  | [] => rfl
  | [item] => by simp [stringify.items', join]
  | item :: next :: rest => by
    rw [stringify.items', stringify_items (next :: rest)]
    · simp [join, List.intercalate_cons_cons]
    · simp

theorem stringify_members : ∀ members : Members N,
    stringify.members' members = join (js ",") (members.map fun member => quoteJson member.1 ++ js ":" ++ stringify member.2)
  | [] => rfl
  | [(name, value)] => by simp [stringify.members', join]
  | (name, value) :: next :: rest => by
    rw [stringify.members', stringify_members (next :: rest)]
    · simp [join, List.intercalate_cons_cons]
    · simp

theorem counted_text {counted after : Counted} {value text : Text} (ok : counted.text value = .ok (text, after)) : text = quoteJson value := by
  unfold Counted.text at ok
  dsimp only at ok
  split at ok
  · cases ok
  · exact (Prod.mk.inj (Except.ok.inj ok)).1.symm

/-- What is serialized within the limits is JSON, and the text is the one `JSON.stringify` writes. -/
def Serializes (value : Value N) : Prop :=
  ∀ depth before text after, serialize depth value before = .ok (text, after) → IsJson value ∧ text = stringify value

theorem serializeItems_ok {depth : Nat} : ∀ {items : List (Value N)}, (∀ item ∈ items, Serializes item) →
    ∀ {before after : Counted} {parts : List Text}, serialize.serializeItems depth items before = .ok (parts, after) → (∀ item ∈ items, IsJson item) ∧ parts = items.map stringify
  | [], _, _, _, _, ok => ⟨fun _ member => (by cases member), (Prod.mk.inj (Except.ok.inj ok)).1.symm⟩
  | item :: rest, each, before, after, parts, ok => by
    rw [serialize.serializeItems, attempt_bind_ok] at ok
    obtain ⟨⟨part, next⟩, first, ok⟩ := ok
    rw [attempt_bind_ok] at ok
    obtain ⟨⟨more, last⟩, others, ok⟩ := ok
    obtain ⟨isJson, same⟩ := each item (List.mem_cons_self ..) depth before part next first
    obtain ⟨areJson, sames⟩ := serializeItems_ok (fun item member => each item (List.mem_cons_of_mem _ member)) others
    have isParts := (Prod.mk.inj (Except.ok.inj ok)).1
    exact ⟨List.forall_mem_cons.mpr ⟨isJson, areJson⟩, by rw [← isParts, same, sames, List.map_cons]⟩

theorem serializeMembers_ok {depth : Nat} : ∀ {members : Members N}, (∀ member ∈ members, Serializes member.2) →
    ∀ {before after : Counted} {parts : List Text}, serialize.serializeMembers depth members before = .ok (parts, after) →
    (∀ member ∈ members, IsJson member.2) ∧ parts = members.map fun member => quoteJson member.1 ++ js ":" ++ stringify member.2
  | [], _, _, _, _, ok => ⟨fun _ member => (by cases member), (Prod.mk.inj (Except.ok.inj ok)).1.symm⟩
  | (name, value) :: rest, each, before, after, parts, ok => by
    rw [serialize.serializeMembers, attempt_bind_ok] at ok
    obtain ⟨⟨quoted, named⟩, isQuoted, ok⟩ := ok
    rw [attempt_bind_ok] at ok
    obtain ⟨⟨part, next⟩, first, ok⟩ := ok
    rw [attempt_bind_ok] at ok
    obtain ⟨⟨more, last⟩, others, ok⟩ := ok
    obtain ⟨isJson, same⟩ := each (name, value) (List.mem_cons_self ..) depth named part next first
    obtain ⟨areJson, sames⟩ := serializeMembers_ok (fun member inMembers => each member (List.mem_cons_of_mem _ inMembers)) others
    have isParts := (Prod.mk.inj (Except.ok.inj ok)).1
    exact ⟨List.forall_mem_cons.mpr ⟨isJson, areJson⟩, by rw [← isParts, counted_text isQuoted, same, sames, List.map_cons]⟩

def serialized (depth : Nat) (counted : Counted) : Value N → Except Failure (Text × Counted)
  | .null => .ok (js "null", counted)
  | .text value => counted.text value
  | .boolean value => .ok (if value then js "true" else js "false", counted)
  | .number value =>
    if JsNumber.isFinite value then .ok (JsNumber.toText value, counted) else contentError .invalidValue (js "Content requires JSON values.")
  | .undefined | .builtin _ => contentError .invalidValue (js "Content requires JSON values.")
  | .date _ => contentError .invalidValue (js "Content accepts only plain JSON objects.")
  | .array items => do
    let (parts, counted) ← serialize.serializeItems (depth + 1) items counted
    .ok (js "[" ++ join (js ",") parts ++ js "]", counted)
  | .object members => do
    let (parts, counted) ← serialize.serializeMembers (depth + 1) members counted
    .ok (js "\x7b" ++ join (js ",") parts ++ js "\x7d", counted)

theorem serialize_eq (depth : Nat) (value : Value N) (before : Counted) : serialize depth value before =
    if contentLimits.jsonValues < before.values + 1 ∨ contentLimits.jsonDepth < depth then
      contentError .contentLimitExceeded (js "Content exceeds the JSON size or depth budget.")
    else serialized depth { before with values := before.values + 1 } value := by
  cases value <;> rw [serialize] <;> rfl

theorem serialized_of_ok {depth : Nat} {value : Value N} {before : Counted} {result : Text × Counted} (ok : serialize depth value before = .ok result) :
    serialized depth { before with values := before.values + 1 } value = .ok result := by
  rw [serialize_eq] at ok
  split at ok
  · cases ok
  · exact ok

theorem serialize_ok (value : Value N) : Serializes value := by
  induction value using Value.onParts with
  | undefined | date | builtin => exact fun _ _ _ _ ok => by cases serialized_of_ok ok
  | null => exact fun _ _ _ _ ok => ⟨.null, (Prod.mk.inj (Except.ok.inj (serialized_of_ok ok))).1.symm⟩
  | boolean value => exact fun _ _ _ _ ok => ⟨.boolean value, (Prod.mk.inj (Except.ok.inj (serialized_of_ok ok))).1.symm⟩
  | number value =>
    intro depth before text after ok
    have form := serialized_of_ok ok
    rw [serialized] at form
    split at form
    next finite => exact ⟨.number finite, (Prod.mk.inj (Except.ok.inj form)).1.symm⟩
    next => cases form
  | text value => exact fun _ _ _ _ ok => ⟨.text value, counted_text (serialized_of_ok ok)⟩
  | array items each =>
    intro depth before text after ok
    have form := serialized_of_ok ok
    rw [serialized, attempt_bind_ok] at form
    obtain ⟨⟨parts, next⟩, others, form⟩ := form
    obtain ⟨areJson, same⟩ := serializeItems_ok each others
    refine ⟨.array areJson, ?_⟩
    rw [← (Prod.mk.inj (Except.ok.inj form)).1, same, stringify, stringify_items]
  | object members each =>
    intro depth before text after ok
    have form := serialized_of_ok ok
    rw [serialized, attempt_bind_ok] at form
    obtain ⟨⟨parts, next⟩, others, form⟩ := form
    obtain ⟨areJson, same⟩ := serializeMembers_ok each others
    refine ⟨.object areJson, ?_⟩
    rw [← (Prod.mk.inj (Except.ok.inj form)).1, same, stringify, stringify_members]

theorem canonicalJson_ok {value : Value N} {text : Text} (ok : canonicalJson value = .ok text) : IsJson value ∧ text = stringify (sorted value) := by
  rw [canonicalJson, attempt_bind_ok] at ok
  obtain ⟨⟨written, after⟩, serialized, ok⟩ := ok
  obtain ⟨isJson, same⟩ := serialize_ok (sorted value) 0 {} written after serialized
  exact ⟨(isJson_sorted value).mp isJson, (Except.ok.inj ok).symm.trans same⟩

end Serializing

section Meaning
variable {nearest : ℚ → N}

theorem toText_of_numeral (numbers : JsonNumbers nearest) {value other : N} (finite : JsNumber.isFinite value = true)
    (finite' : JsNumber.isFinite other = true) (same : numeral value = numeral other) : JsNumber.toText value = JsNumber.toText other := by
  have first := (numbers.toText_equal _ _ (numbers.nearest_finite value finite) finite).mp (numbers.nearest_equal value finite)
  have second := (numbers.toText_equal _ _ (numbers.nearest_finite other finite') finite').mp (numbers.nearest_equal other finite')
  rw [← first, same, second]

theorem numeral_of_toText {value other : N} (same : JsNumber.toText value = JsNumber.toText other) : numeral value = numeral other := by
  rw [numeral, same, ← numeral]

theorem numeral_nearest (numbers : JsonNumbers nearest) {value : N} (finite : JsNumber.isFinite value = true) :
    numeral (nearest (numeral value)) = numeral value :=
  numeral_of_toText ((numbers.toText_equal _ _ (numbers.nearest_finite value finite) finite).mp (numbers.nearest_equal value finite))

/-- What two values are serialized as goes by what they say. -/
def AsSaid (value : Value N) : Prop :=
  ∀ other : Value N, IsJson value → IsJson other → jsonOf value = jsonOf other →
    ∀ depth before, serialize depth value before = serialize depth other before

theorem serializeItems_said (depth : Nat) : ∀ {items others : List (Value N)}, (∀ item ∈ items, AsSaid item) → (∀ item ∈ items, IsJson item) →
    (∀ item ∈ others, IsJson item) → items.map jsonOf = others.map jsonOf →
    ∀ before, serialize.serializeItems depth items before = serialize.serializeItems depth others before
  | [], [], _, _, _, _, _ => rfl
  | [], _ :: _, _, _, _, same, _ => by cases same
  | _ :: _, [], _, _, _, same, _ => by cases same
  | item :: rest, other :: others, each, isJson, isJson', same, before => by
    obtain ⟨first, later⟩ := List.cons.inj same
    have here := each item (List.mem_cons_self ..) other (isJson item (List.mem_cons_self ..)) (isJson' other (List.mem_cons_self ..)) first
    have further := serializeItems_said depth (fun item member => each item (List.mem_cons_of_mem _ member))
      (fun item member => isJson item (List.mem_cons_of_mem _ member)) (fun item member => isJson' item (List.mem_cons_of_mem _ member)) later
    simp only [serialize.serializeItems, here, further]

theorem serializeMembers_said (depth : Nat) : ∀ {members others : Members N}, (∀ member ∈ members, AsSaid member.2) →
    (∀ member ∈ members, IsJson member.2) → (∀ member ∈ others, IsJson member.2) →
    (members.map fun member => (member.1, jsonOf member.2)) = (others.map fun member => (member.1, jsonOf member.2)) →
    ∀ before, serialize.serializeMembers depth members before = serialize.serializeMembers depth others before
  | [], [], _, _, _, _, _ => rfl
  | [], _ :: _, _, _, _, same, _ => by cases same
  | _ :: _, [], _, _, _, same, _ => by cases same
  | (name, value) :: rest, (name', other) :: others, each, isJson, isJson', same, before => by
    obtain ⟨first, later⟩ := List.cons.inj same
    obtain ⟨sameName, said⟩ := Prod.mk.inj first
    dsimp only at sameName said
    subst sameName
    have here := each (name, value) (List.mem_cons_self ..) other (isJson _ (List.mem_cons_self ..)) (isJson' _ (List.mem_cons_self ..)) said
    have further := serializeMembers_said depth (fun member inMembers => each member (List.mem_cons_of_mem _ inMembers))
      (fun member inMembers => isJson member (List.mem_cons_of_mem _ inMembers))
      (fun member inMembers => isJson' member (List.mem_cons_of_mem _ inMembers)) later
    simp only [serialize.serializeMembers, here, further]

theorem serialize_said (numbers : JsonNumbers nearest) (value : Value N) : AsSaid value := by
  induction value using Value.onParts with
  | undefined | date | builtin => exact fun _ isJson => by cases isJson
  | null =>
    intro other _ isJson same depth before
    cases isJson with
    | null => rfl
    | _ => cases same
  | boolean value =>
    intro other _ isJson same depth before
    cases isJson with
    | boolean => cases same; rfl
    | _ => cases same
  | text value =>
    intro other _ isJson same depth before
    cases isJson with
    | text => cases same; rfl
    | _ => cases same
  | number value =>
    intro other isJson isJson' same depth before
    cases isJson with
    | number finite =>
      cases isJson' with
      | @number other finite' =>
        have numerals : numeral value = numeral other := Json.number.inj same
        rw [serialize_eq, serialize_eq, serialized, serialized, if_pos finite, if_pos finite', toText_of_numeral numbers finite finite' numerals]
      | _ => cases same
  | array items each =>
    intro other isJson isJson' same depth before
    cases isJson with
    | array isItem =>
      cases isJson' with
      | @array others isItem' =>
        rw [jsonOf_array, jsonOf_array] at same
        have items := fun before => serializeItems_said (depth + 1) each isItem isItem' (Json.array.inj same) before
        rw [serialize_eq, serialize_eq, serialized, serialized, items]
      | _ => cases same
  | object members each =>
    intro other isJson isJson' same depth before
    cases isJson with
    | object isMember =>
      cases isJson' with
      | @object others isMember' =>
        rw [jsonOf_object, jsonOf_object] at same
        have members := fun before => serializeMembers_said (depth + 1) each isMember isMember' (Json.object.inj same) before
        rw [serialize_eq, serialize_eq, serialized, serialized, members]
      | _ => cases same

abbrev said (value : Value N) : Json := jsonOf (sorted value)

theorem said_array (items : List (Value N)) : said (.array items) = .array (items.map said) := by
  rw [said, sorted_array, jsonOf_array, List.map_map]
  rfl

theorem said_object (members : Members N) : said (.object members) = .object (sortMembers (members.map fun member => (member.1, said member.2))) := by
  rw [said, sorted_object, jsonOf_object, List.map_map, sortMembers_map]
  rfl

theorem map_fst_said (members : Members N) : (members.map fun member => (member.1, said member.2)).map Prod.fst = members.map Prod.fst := by
  rw [List.map_map]
  rfl

theorem said_members {members others : Members N} (distinct : (members.map Prod.fst).Nodup) (distinct' : (others.map Prod.fst).Nodup) :
    sortMembers (members.map fun member => (member.1, said member.2)) = sortMembers (others.map fun member => (member.1, said member.2)) ↔
      (∀ name, name ∈ members.map Prod.fst ↔ name ∈ others.map Prod.fst) ∧
      ∀ name value other, (name, value) ∈ members → (name, other) ∈ others → said value = said other := by
  constructor
  · intro same
    have perm : (members.map fun member => (member.1, said member.2)).Perm (others.map fun member => (member.1, said member.2)) :=
      (sortMembers_perm _).symm.trans ((List.Perm.of_eq same).trans (sortMembers_perm _))
    refine ⟨fun name => ?_, fun name value other inMembers inOthers => ?_⟩
    · rw [← map_fst_said members, ← map_fst_said others]
      exact (perm.map Prod.fst).mem_iff
    · obtain ⟨⟨name', found⟩, inOthers', isFound⟩ := List.mem_map.mp (perm.mem_iff.mp (List.mem_map_of_mem inMembers))
      obtain ⟨rfl, meansSame⟩ := Prod.mk.inj isFound
      have sameMember := List.inj_on_of_nodup_map distinct' inOthers inOthers' rfl
      rw [← meansSame, (Prod.mk.inj sameMember).2]
  · rintro ⟨names, each⟩
    have nodup : ((members.map fun member => (member.1, said member.2)).map Prod.fst).Nodup := by rwa [map_fst_said]
    have nodup' : ((others.map fun member => (member.1, said member.2)).map Prod.fst).Nodup := by rwa [map_fst_said]
    refine sortMembers_eq nodup ((List.perm_ext_iff_of_nodup nodup.of_map nodup'.of_map).mpr fun (name, what) => ?_)
    simp only [List.mem_map, Prod.mk.injEq]
    constructor
    · rintro ⟨⟨name, value⟩, inMembers, rfl, rfl⟩
      obtain ⟨⟨other, found⟩, inOthers, rfl⟩ := List.mem_map.mp ((names name).mp (List.mem_map_of_mem inMembers))
      exact ⟨(other, found), inOthers, rfl, (each other value found inMembers inOthers).symm⟩
    · rintro ⟨⟨name, value⟩, inOthers, rfl, rfl⟩
      obtain ⟨⟨other, found⟩, inMembers, rfl⟩ := List.mem_map.mp ((names name).mpr (List.mem_map_of_mem inOthers))
      exact ⟨(other, found), inMembers, rfl, each other found value inMembers inOthers⟩

theorem sameJson_iff (numbers : JsonNumbers nearest) (value : Value N) : ∀ other : Value N, IsJson value → IsJson other → Named value → Named other →
    (SameJson value other ↔ said value = said other) := by
  induction value using Value.onParts with
  | undefined | date | builtin => exact fun _ isJson => by cases isJson
  | null =>
    intro other _ isJson _ _
    constructor
    · intro same
      cases same
      rfl
    · intro same
      cases isJson with
      | null => exact .null
      | _ => cases same
  | boolean value =>
    intro other _ isJson _ _
    constructor
    · intro same
      cases same
      rfl
    · intro same
      cases isJson with
      | boolean => cases same; exact .boolean value
      | _ => cases same
  | text value =>
    intro other _ isJson _ _
    constructor
    · intro same
      cases same
      rfl
    · intro same
      cases isJson with
      | text => cases same; exact .text value
      | _ => cases same
  | number value =>
    intro other isJson isJson' _ _
    cases isJson with
    | number finite =>
      constructor
      · intro same
        cases same with
        | number equal =>
          cases isJson' with
          | number finite' => exact congrArg Json.number (numeral_of_toText ((numbers.toText_equal _ _ finite finite').mp equal))
      · intro same
        cases isJson' with
        | number finite' =>
          exact .number ((numbers.toText_equal _ _ finite finite').mpr (toText_of_numeral numbers finite finite' (Json.number.inj same)))
        | _ => cases same
  | array items each =>
    intro other isJson isJson' named named'
    cases isJson with
    | array isItem =>
      cases named with
      | array namedItem =>
        have pairs : ∀ {others : List (Value N)}, (∀ item ∈ others, IsJson item) → (∀ item ∈ others, Named item) → ∀ pair ∈ items.zip others,
            (SameJson pair.1 pair.2 ↔ said pair.1 = said pair.2) := by
          intro others isItem' namedItem' pair member
          obtain ⟨inItems, inOthers⟩ := List.of_mem_zip member
          exact each pair.1 inItems pair.2 (isItem _ inItems) (isItem' _ inOthers) (namedItem _ inItems) (namedItem' _ inOthers)
        constructor
        · intro same
          cases same with
          | array length same =>
            cases isJson' with
            | array isItem' =>
              cases named' with
              | array namedItem' =>
                rw [said_array, said_array,
                  (map_eq_iff_zip said).mpr ⟨length, fun pair member => (pairs isItem' namedItem' pair member).mp (same pair member)⟩]
        · intro same
          cases isJson' with
          | array isItem' =>
            cases named' with
            | array namedItem' =>
              rw [said_array, said_array] at same
              obtain ⟨length, meansSame⟩ := (map_eq_iff_zip said).mp (Json.array.inj same)
              exact .array length fun pair member => (pairs isItem' namedItem' pair member).mpr (meansSame pair member)
          | object => rw [said_array, said_object] at same; cases same
          | _ => cases same
  | object members each =>
    intro other isJson isJson' named named'
    cases isJson with
    | object isMember =>
      cases named with
      | object distinct namedMember =>
        have pairs : ∀ {others : Members N}, (∀ member ∈ others, IsJson member.2) → (∀ member ∈ others, Named member.2) →
            ∀ name value other, (name, value) ∈ members → (name, other) ∈ others → (SameJson value other ↔ said value = said other) :=
          fun isMember' namedMember' name value other inMembers inOthers => each (name, value) inMembers other (isMember _ inMembers)
            (isMember' _ inOthers) (namedMember _ inMembers) (namedMember' _ inOthers)
        constructor
        · intro same
          cases same with
          | object names same =>
            cases isJson' with
            | object isMember' =>
              cases named' with
              | object distinct' namedMember' =>
                rw [said_object, said_object, (said_members distinct distinct').mpr ⟨names, fun name value other inMembers inOthers =>
                  (pairs isMember' namedMember' name value other inMembers inOthers).mp (same name value other inMembers inOthers)⟩]
        · intro same
          cases isJson' with
          | object isMember' =>
            cases named' with
            | object distinct' namedMember' =>
              rw [said_object, said_object] at same
              obtain ⟨names, meansSame⟩ := (said_members distinct distinct').mp (Json.object.inj same)
              exact .object names fun name value other inMembers inOthers =>
                (pairs isMember' namedMember' name value other inMembers inOthers).mpr (meansSame name value other inMembers inOthers)
          | array => rw [said_array, said_object] at same; cases same
          | _ => cases same

theorem made_said (numbers : JsonNumbers nearest) (value : Value N) (isJson : IsJson value) : made nearest (said value) = parsedValue value := by
  induction value using Value.onParts with
  | undefined | date | builtin => cases isJson
  | null | boolean | text => rfl
  | number value =>
    cases isJson with
    | number finite => exact congrArg Value.number (numbers.ofText_nearest value finite).symm
  | array items each =>
    cases isJson with
    | array isItem =>
      rw [said_array, made, made_items, List.map_map, parsedValue_array]
      exact congrArg Value.array (List.map_congr_left fun item member => each item member (isItem item member))
  | object members each =>
    cases isJson with
    | object isMember =>
      rw [said_object, made, made_members, sortMembers_map, List.map_map, parsedValue_object]
      refine congrArg (fun members => Value.object (ownOrder members)) (List.map_congr_left fun member inSorted => ?_)
      have inMembers := (sortMembers_perm members).mem_iff.mp inSorted
      exact congrArg (Prod.mk member.1) (each member inMembers (isMember member inMembers))

theorem said_parsedValue (numbers : JsonNumbers nearest) (value : Value N) (isJson : IsJson value) (named : Named value) :
    IsJson (parsedValue value) ∧ Named (parsedValue value) ∧ said (parsedValue value) = said value := by
  induction value using Value.onParts with
  | undefined | date | builtin => cases isJson
  | null | boolean | text => exact ⟨isJson, named, rfl⟩
  | number value =>
    cases isJson with
    | number finite =>
      have copy : parsedValue (.number value) = .number (nearest (numeral value)) := congrArg Value.number (numbers.ofText_nearest value finite)
      rw [copy]
      exact ⟨.number (numbers.nearest_finite value finite), .number _, congrArg Json.number (numeral_nearest numbers finite)⟩
  | array items each =>
    cases isJson with
    | array isItem =>
      cases named with
      | array namedItem =>
        rw [parsedValue_array]
        have copies := fun item member => each item member (isItem item member) (namedItem item member)
        refine ⟨.array (List.forall_mem_map.mpr fun item member => (copies item member).1),
          .array (List.forall_mem_map.mpr fun item member => (copies item member).2.1), ?_⟩
        rw [said_array, said_array, List.map_map]
        exact congrArg Json.array (List.map_congr_left fun item member => (copies item member).2.2)
  | object members each =>
    cases isJson with
    | object isMember =>
      cases named with
      | object distinct namedMember =>
        rw [parsedValue_object, ← sortMembers_map]
        have copies := fun member inMembers => each member inMembers (isMember member inMembers) (namedMember member inMembers)
        have perm : (ownOrder (sortMembers (members.map fun member => (member.1, parsedValue member.2)))).Perm
            (members.map fun member => (member.1, parsedValue member.2)) := (ownOrder_perm _).trans (sortMembers_perm _)
        have names : (members.map fun member => (member.1, parsedValue member.2)).map Prod.fst = members.map Prod.fst := by
          rw [List.map_map]
          rfl
        have distinct' : ((ownOrder (sortMembers (members.map fun member => (member.1, parsedValue member.2)))).map Prod.fst).Nodup := by
          rwa [(perm.map Prod.fst).nodup_iff, names]
        refine ⟨.object fun member inCopy => ?_, .object distinct' fun member inCopy => ?_, ?_⟩
        · obtain ⟨original, inMembers, rfl⟩ := List.mem_map.mp (perm.mem_iff.mp inCopy)
          exact (copies original inMembers).1
        · obtain ⟨original, inMembers, rfl⟩ := List.mem_map.mp (perm.mem_iff.mp inCopy)
          exact (copies original inMembers).2.1
        · rw [said_object, said_object]
          have same : (members.map fun member => (member.1, said (parsedValue member.2))) = members.map fun member => (member.1, said member.2) :=
            List.map_congr_left fun member inMembers => congrArg (Prod.mk member.1) (copies member inMembers).2.2
          refine congrArg Json.object (sortMembers_eq (by rwa [map_fst_said]) ((perm.map fun member => (member.1, said member.2)).trans ?_))
          rw [List.map_map]
          exact .of_eq same

theorem canonicalJson_said (numbers : JsonNumbers nearest) {value other : Value N} (isJson : IsJson value) (isJson' : IsJson other)
    (same : said value = said other) : canonicalJson value = canonicalJson other := by
  have serialized := serialize_said numbers (sorted value) (sorted other) ((isJson_sorted value).mpr isJson) ((isJson_sorted other).mpr isJson') same 0 {}
  rw [canonicalJson, canonicalJson, serialized]

end Meaning

section Faithful
variable {nearest : ℚ → N}

/-- A snapshot is frozen, and stored with the digest of what was frozen (the end of materializeContent). -/
def sealSnapshot (sha256 : Text → Text) (domain : Text) (members : Record (Value N)) : Except Failure (Record (Value N)) := do
  let snapshot ← immutableContent members
  let compositionHash ← hashCanonicalJson sha256 snapshot domain
  immutableContent (snapshot ++ [(js "compositionHash", .text compositionHash)] : Record (Value N))

theorem record_ok {record copy : Record (Value N)} (ok : immutableContent record = .ok copy) :
    (∃ text, canonicalJson (.object record) = .ok text) ∧ parsedValue (.object record) = .object copy := by
  have members : (toJson record : Value N) = .object record := congrArg Value.object (List.map_id record)
  rw [immutableContent, attempt_bind_ok, members] at ok
  obtain ⟨text, canonical, ok⟩ := ok
  refine ⟨⟨text, canonical⟩, ?_⟩
  rw [← Except.ok.inj ok, parsedValue_object, ← sortMembers_map]
  rfl

theorem hashCanonicalJson_record (sha256 : Text → Text) (record : Record (Value N)) (domain : Text) :
    hashCanonicalJson sha256 record domain = (canonicalJson (.object record)).bind fun canonical => .ok (sha256 (domain ++ [10] ++ canonical)) := by
  have members : (toJson record : Value N) = .object record := congrArg Value.object (List.map_id record)
  rw [hashCanonicalJson, members]
  rfl

theorem sealSnapshot_rehashes (numbers : JsonNumbers nearest) {members stored : Record (Value N)} (named : Named (.object members))
    (fresh : js "compositionHash" ∉ members.keys) {sha256 : Text → Text} {domain : Text} (ok : sealSnapshot sha256 domain members = .ok stored) :
    ∃ hash, (js "compositionHash", Value.text hash) ∈ stored ∧
      hashCanonicalJson sha256 (stored.filter fun member => member.1 ≠ js "compositionHash" : Record (Value N)) domain = .ok hash := by
  rw [sealSnapshot, attempt_bind_ok] at ok
  obtain ⟨snapshot, frozen, ok⟩ := ok
  rw [attempt_bind_ok] at ok
  obtain ⟨hash, hashed, ok⟩ := ok
  obtain ⟨⟨text, canonical⟩, isSnapshot⟩ := record_ok frozen
  obtain ⟨-, isStored⟩ := record_ok ok
  have copied := said_parsedValue numbers _ (canonicalJson_ok canonical).1 named
  rw [isSnapshot] at copied
  obtain ⟨isJson, namedCopy, -⟩ := copied
  have isMember : ∀ member ∈ snapshot, IsJson member.2 := by
    cases isJson
    assumption
  obtain ⟨distinct, namedMember⟩ : (snapshot.map Prod.fst).Nodup ∧ ∀ member ∈ snapshot, Named member.2 := by
    cases namedCopy with
    | object distinct each => exact ⟨distinct, each⟩
  have names : js "compositionHash" ∉ snapshot.map Prod.fst := by
    rw [parsedValue_object] at isSnapshot
    rw [← Value.object.inj isSnapshot, ((ownOrder_perm _).map Prod.fst).mem_iff, List.map_map]
    exact fun again => fresh (((sortMembers_perm members).map Prod.fst).mem_iff.mp again)
  have perm : stored.Perm ((snapshot.map fun member => (member.1, parsedValue member.2)) ++ [(js "compositionHash", .text hash)]) := by
    rw [parsedValue_object, ← sortMembers_map] at isStored
    rw [← Value.object.inj isStored]
    refine ((ownOrder_perm _).trans (sortMembers_perm _)).trans (.of_eq ?_)
    rw [List.map_append]
    rfl
  have rest : (stored.filter fun member => member.1 ≠ js "compositionHash").Perm (snapshot.map fun member => (member.1, parsedValue member.2)) := by
    refine (perm.filter _).trans (.of_eq ?_)
    rw [List.filter_append, List.filter_eq_self.mpr, List.filter_cons_of_neg (by simp), List.filter_nil, List.append_nil]
    refine List.forall_mem_map.mpr fun member inSnapshot => decide_eq_true fun same => names ?_
    have named : member.1 ∈ snapshot.map Prod.fst := List.mem_map_of_mem inSnapshot
    exact same ▸ named
  have copies := fun member inSnapshot => said_parsedValue numbers _ (isMember member inSnapshot) (namedMember member inSnapshot)
  have restJson : IsJson (.object (stored.filter fun member => member.1 ≠ js "compositionHash")) := by
    refine .object fun member inRest => ?_
    obtain ⟨original, inSnapshot, rfl⟩ := List.mem_map.mp (rest.mem_iff.mp inRest)
    exact (copies original inSnapshot).1
  have restSaid : said (.object (stored.filter fun member => member.1 ≠ js "compositionHash")) = said (.object snapshot) := by
    rw [said_object, said_object]
    have same : (snapshot.map fun member => (member.1, said (parsedValue member.2))) = snapshot.map fun member => (member.1, said member.2) :=
      List.map_congr_left fun member inSnapshot => congrArg (Prod.mk member.1) (copies member inSnapshot).2.2
    have perms := rest.map fun member => (member.1, said member.2)
    rw [List.map_map] at perms
    have swapped : (snapshot.map fun member => (member.1, said member.2)).Perm
        ((stored.filter fun member => member.1 ≠ js "compositionHash").map fun member => (member.1, said member.2)) :=
      (perms.trans (.of_eq same)).symm
    exact congrArg Json.object (sortMembers_eq (by rwa [map_fst_said]) swapped).symm
  refine ⟨hash, perm.mem_iff.mpr (List.mem_append_right _ (List.mem_singleton_self _)), ?_⟩
  rw [hashCanonicalJson_record] at hashed ⊢
  rw [canonicalJson_said numbers restJson isJson restSaid, hashed]

/-- Canonical content JSON is read back as the value it was written of, tells apart exactly what is not the same JSON,
and is the text of the frozen copy too. -/
theorem canonicalJson_faithful (numbers : JsonNumbers nearest) {value other : Value N} (named : Named value) (named' : Named other) {text text' : Text}
    (ok : canonicalJson value = .ok text) (ok' : canonicalJson other = .ok text') :
    (∃ copy, jsonParse nearest text = some copy ∧ SameJson copy value ∧ immutableContent value = .ok copy ∧ canonicalJson copy = .ok text) ∧
    (text = text' ↔ SameJson value other) ∧
    ∀ (members stored : Record (Value N)) (sha256 : Text → Text) (domain : Text), value = .object members → js "compositionHash" ∉ members.keys →
      sealSnapshot sha256 domain members = .ok stored → ∃ hash, (js "compositionHash", Value.text hash) ∈ stored ∧
        hashCanonicalJson sha256 (stored.filter fun member => member.1 ≠ js "compositionHash" : Record (Value N)) domain = .ok hash := by
  obtain ⟨isJson, written⟩ := canonicalJson_ok ok
  obtain ⟨isJson', written'⟩ := canonicalJson_ok ok'
  have parsed : ∀ {value : Value N}, IsJson value → Named value → parse (stringify (sorted value)) = some (said value) :=
    fun isJson named => parse_stringify numbers ((isJson_sorted _).mpr isJson) (named_sorted _ named)
  obtain ⟨copyJson, copyNamed, copySaid⟩ := said_parsedValue numbers value isJson named
  have copied := (sameJson_iff numbers _ _ copyJson isJson copyNamed named).mpr copySaid
  refine ⟨⟨parsedValue value, ?_, copied, ?_, ?_⟩, ⟨fun same => ?_, fun same => ?_⟩, ?_⟩
  · rw [jsonParse, written, parsed isJson named, Option.map_some, made_said numbers value isJson]
  · rw [immutableContent, attempt_bind_ok]
    exact ⟨text, ok, rfl⟩
  · rw [canonicalJson_said numbers copyJson isJson copySaid, ok]
  · have meaning := parsed isJson named
    rw [← written, same, written', parsed isJson' named'] at meaning
    exact (sameJson_iff numbers _ _ isJson isJson' named named').mpr (Option.some.inj meaning).symm
  · have meaning := canonicalJson_said numbers isJson isJson' ((sameJson_iff numbers _ _ isJson isJson' named named').mp same)
    rw [ok, ok'] at meaning
    exact Except.ok.inj meaning
  · rintro members stored sha256 domain rfl fresh stores
    exact sealSnapshot_rehashes numbers named fresh stores

end Faithful

section Integers
open Operations.ExactRationals

/-- Whole numbers, of which `Number` reads a sign as well. -/
def Integer : Type := Whole

def Integer.of (value : Int) : Integer := Whole.finite value

/-- The whole number of a numeral without a fraction. -/
def nearestInteger (value : ℚ) : Integer := .of value.num

def Integer.ofText (text : Text) : Whole :=
  if text.head? = some (unit '-') then Whole.combine (· - ·) (.finite 0) (Whole.ofText text.tail) else Whole.ofText text

instance jsInteger : JsNumber Integer := { (inferInstance : JsNumber Whole) with ofText := Integer.ofText }

theorem readNumber_digits {digits : Text} (whole : IsWhole digits) (negative : Bool) {rest : Text} (ended : Ended rest) :
    readNumber ((if negative then js "-" else []) ++ digits ++ rest) =
      some (((if negative then -(JsonText.digitsValue digits : Int) else JsonText.digitsValue digits : Int) : ℚ), rest) := by
  obtain ⟨all, nonempty, leading⟩ := whole
  have other : ∀ c, rest.head? = some c → isDigit c = false ∧ c ≠ unit '.' ∧ c ≠ unit 'e' ∧ c ≠ unit 'E' := by
    intro c isHead
    rcases ended c isHead with rfl | rfl | rfl <;> decide
  have cut : (digits ++ rest).takeWhile isDigit = digits ∧ (digits ++ rest).dropWhile isDigit = rest := by
    rw [List.takeWhile_append_of_pos all, List.dropWhile_append_of_pos all]
    cases rest with
    | nil => simp
    | cons c more =>
      have notDigit : ¬isDigit c = true := by rw [(other c rfl).1]; decide
      rw [List.takeWhile_cons_of_neg notDigit, List.dropWhile_cons_of_neg notDigit, List.append_nil]
      exact ⟨rfl, rfl⟩
  have noFraction : readFraction rest = some ([], rest) := if_neg fun point => (other _ point).2.1 rfl
  have noExponent : readExponent rest = some (0, rest) := by
    refine if_neg fun exponent => ?_
    rcases exponent with e | e
    · exact (other _ e).2.2.1 rfl
    · exact (other _ e).2.2.2 rfl
  have sign : ((if negative then js "-" else []) ++ digits ++ rest).head? = some (unit '-') ↔ negative = true := by
    cases negative with
    | true => exact ⟨fun _ => rfl, fun _ => rfl⟩
    | false => exact ⟨fun minus => absurd minus (by simpa using head_not_minus all nonempty rest), fun never => by cases never⟩
  have unsigned : (if negative = true then ((if negative then js "-" else []) ++ digits ++ rest).tail
      else (if negative then js "-" else []) ++ digits ++ rest) = digits ++ rest := by
    cases negative <;> rfl
  have wellFormed : ¬(digits = [] ∨ (digits.head? = some (unit '0') ∧ digits.length ≠ 1)) := by tauto
  unfold readNumber
  simp only [sign, unsigned, List.span_eq_takeWhile_dropWhile, cut, wellFormed, if_false, noFraction, noExponent, Option.bind_some,
    Option.map_some, List.append_nil, List.length_nil]
  simp [scaled]

theorem toText_integer (value : Int) : (JsNumber.toText (Integer.of value) : Text) =
    (if decide (value < 0) then js "-" else []) ++ Exact.wholeText value.natAbs := by
  show Whole.toText (.finite value) = _
  unfold Whole.toText Exact.wholeText
  dsimp only
  rcases lt_trichotomy value 0 with negative | rfl | positive
  · rw [if_neg negative.ne, if_pos negative, decide_eq_true negative, if_pos rfl, if_neg (by omega)]
  · rfl
  · rw [if_neg positive.ne', if_neg (by omega), decide_eq_false (by omega), if_neg (by decide), if_neg (by omega)]
    rfl

theorem signed_natAbs (value : Int) : (if decide (value < 0) = true then -(value.natAbs : Int) else value.natAbs) = value := by
  split
  next negative =>
    have := of_decide_eq_true negative
    omega
  next notNegative =>
    have : ¬value < 0 := fun negative => notNegative (decide_eq_true negative)
    omega

theorem readNumber_integer (value : Int) {rest : Text} (ended : Ended rest) :
    readNumber (JsNumber.toText (Integer.of value) ++ rest) = some ((value : ℚ), rest) := by
  have digits : JsonText.digitsValue (Exact.wholeText value.natAbs) = value.natAbs := Exact.digitsValue_wholeText value.natAbs
  rw [toText_integer, readNumber_digits (isWhole_wholeText value.natAbs) _ ended, digits, signed_natAbs]

theorem numeral_integer (value : Int) : numeral (Integer.of value) = value := by
  have ended : Ended [] := fun _ none => by cases none
  have read := readNumber_integer value ended
  rw [List.append_nil] at read
  rw [numeral, read]
  rfl

theorem wholeText_ofText (value : Nat) : Whole.ofText (Exact.wholeText value) = .finite value := by
  have digits := Exact.wholeText_digits value
  have inked : ∀ c ∈ Exact.wholeText value, isWhitespace c = false := by
    intro c member
    have range := digits c member
    simp only [isWhitespace, Bool.or_eq_false_iff, Bool.and_eq_false_iff, decide_eq_false_iff_not, beq_eq_false_iff_ne, ne_eq, ← UInt16.toNat_inj,
      UInt16.le_iff_toNat_le, UInt16.reduceToNat]
    omega
  have all : ((Exact.wholeText value).all fun c => decide (48 ≤ c) && decide (c ≤ 57)) = true := by
    simp only [List.all_eq_true, Bool.and_eq_true, decide_eq_true_eq, UInt16.le_iff_toNat_le, UInt16.reduceToNat]
    exact digits
  unfold Whole.ofText
  rw [trim_of_inked inked]
  dsimp only
  rw [if_pos all, Exact.digitsValue_wholeText]

theorem ofText_integer (value : Int) : JsNumber.ofText (JsNumber.toText (Integer.of value)) = Integer.of value := by
  have nonempty := Exact.wholeText_ne_nil value.natAbs
  have plain := head_not_minus (allDigits_wholeText value.natAbs) nonempty []
  rw [List.append_nil] at plain
  show Integer.ofText (JsNumber.toText (Integer.of value)) = Whole.finite value
  rw [toText_integer, Integer.ofText]
  by_cases negative : value < 0
  · rw [decide_eq_true negative, if_pos rfl]
    show Whole.combine (· - ·) (.finite 0) (Whole.ofText (Exact.wholeText value.natAbs)) = _
    rw [wholeText_ofText]
    show Whole.finite (0 - (value.natAbs : Int)) = _
    congr
    omega
  · rw [decide_eq_false negative, if_neg Bool.false_ne_true, List.nil_append, if_neg plain, wholeText_ofText]
    congr
    omega

theorem integers_read : JsonNumbers nearestInteger := by
  have finite : ∀ {value : Integer}, JsNumber.isFinite value = true → ∃ n : Int, value = Integer.of n := by
    intro value isFinite
    cases value with
    | nan => cases isFinite
    | infinite => cases isFinite
    | finite n => exact ⟨n, rfl⟩
  refine ⟨fun value isFinite rest ended => ?_, fun value isFinite => ?_, fun _ _ => rfl, fun value isFinite => ?_, fun value other isFinite isFinite' => ?_⟩
  · obtain ⟨n, rfl⟩ := finite isFinite
    rw [readNumber_integer n ended, numeral_integer]
  · obtain ⟨n, rfl⟩ := finite isFinite
    rw [numeral_integer]
    show Whole.same (.finite (n : ℚ).num) (.finite n) = true
    simp [Whole.same]
  · obtain ⟨n, rfl⟩ := finite isFinite
    rw [numeral_integer]
    exact ofText_integer n
  · obtain ⟨n, rfl⟩ := finite isFinite
    obtain ⟨m, rfl⟩ := finite isFinite'
    constructor
    · intro equal
      have same : Whole.finite n = Whole.finite m := of_decide_eq_true (Bool.and_eq_true_iff.mp equal).1
      exact congrArg (JsNumber.toText (N := Integer)) same
    · intro same
      have numerals := numeral_of_toText same
      rw [numeral_integer, numeral_integer, Int.cast_inj] at numerals
      rw [numerals]
      show Whole.same (.finite m) (.finite m) = true
      simp [Whole.same]

def balance : Members Integer := [(js "b", .array [.number (.of (-3)), .text (js "x")]), (js "a", .null)]

def balanceText : Text := js "\x7b\"a\":null,\"b\":[-3,\"x\"]\x7d"

theorem named_balance {members : Members Integer} (perm : members.Perm balance) : Named (.object members) := by
  refine .object ((perm.map Prod.fst).nodup_iff.mpr (by decide)) fun member inMembers => ?_
  rcases List.mem_pair.mp (perm.mem_iff.mp inMembers) with rfl | rfl
  · refine .array fun item inItems => ?_
    rcases List.mem_pair.mp inItems with rfl | rfl
    · exact .number _
    · exact .text _
  · exact .null

theorem canonicalJson_balance : (∃ copy, jsonParse nearestInteger balanceText = some copy ∧
      SameJson copy (.object balance) ∧ immutableContent (.object balance) = .ok copy ∧ canonicalJson copy = .ok balanceText) ∧
    SameJson (.object balance) (.object balance.reverse) := by
  have faithful := canonicalJson_faithful integers_read (named_balance (.refl balance)) (named_balance (List.reverse_perm balance))
    (by decide +kernel : canonicalJson (.object balance) = .ok balanceText) (by decide +kernel : canonicalJson (.object balance.reverse) = .ok balanceText)
  exact ⟨faithful.1, faithful.2.1.mp rfl⟩

end Integers

end OpenShapeForge.Documents.CanonicalContent
