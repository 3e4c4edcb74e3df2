import OpenShapeForge.Js.JsonText
import OpenShapeForge.Js.TextOrder

/-! Values that are JSON already: what makes two of them the same, and what
`JSON.parse` reads back from the text that `JSON.stringify` writes of one. -/

namespace OpenShapeForge.Js

@[elab_as_elim]
theorem Value.onParts {N : Type} {motive : Value N → Prop} (undefined : motive .undefined) (null : motive .null)
    (boolean : ∀ value, motive (.boolean value)) (number : ∀ value, motive (.number value)) (text : ∀ value, motive (.text value))
    (date : ∀ time, motive (.date time)) (builtin : ∀ name, motive (.builtin name))
    (array : ∀ items, (∀ item ∈ items, motive item) → motive (.array items))
    (object : ∀ members, (∀ member ∈ members, motive member.2) → motive (.object members)) (value : Value N) : motive value :=
  @Value.rec N motive (fun items => ∀ item ∈ items, motive item) (fun members => ∀ member ∈ members, motive member.2) (fun member => motive member.2)
    undefined null boolean number text date array object builtin
    (fun _ member => by cases member) (fun _ _ first rest => List.forall_mem_cons.mpr ⟨first, rest⟩)
    (fun _ member => by cases member) (fun _ _ first rest => List.forall_mem_cons.mpr ⟨first, rest⟩) (fun _ _ each => each) value

variable {N : Type} [JsNumber N]

/-- What `JSON.stringify` writes and loses nothing of. -/
inductive IsJson : Value N → Prop where
  | null : IsJson .null
  | boolean (value : Bool) : IsJson (.boolean value)
  | number {value : N} (finite : JsNumber.isFinite value = true) : IsJson (.number value)
  | text (value : Text) : IsJson (.text value)
  | array {items : List (Value N)} (each : ∀ item ∈ items, IsJson item) : IsJson (.array items)
  | object {members : Members N} (each : ∀ member ∈ members, IsJson member.2) : IsJson (.object members)

/-- Every object in a value holds each name once, as the objects of the language do. -/
inductive Named : Value N → Prop where
  | undefined : Named .undefined
  | null : Named .null
  | boolean (value : Bool) : Named (.boolean value)
  | number (value : N) : Named (.number value)
  | text (value : Text) : Named (.text value)
  | date (time : N) : Named (.date time)
  | builtin (name : Text) : Named (.builtin name)
  | array {items : List (Value N)} (each : ∀ item ∈ items, Named item) : Named (.array items)
  | object {members : Members N} (distinct : (members.map Prod.fst).Nodup) (each : ∀ member ∈ members, Named member.2) : Named (.object members)

/-- Two values are the same JSON: objects as finite maps, and numbers as `===` has them, so that `-0` is `0`. -/
inductive SameJson : Value N → Value N → Prop where
  | null : SameJson .null .null
  | boolean (value : Bool) : SameJson (.boolean value) (.boolean value)
  | number {value other : N} (equal : JsNumber.equal value other = true) : SameJson (.number value) (.number other)
  | text (value : Text) : SameJson (.text value) (.text value)
  | array {items others : List (Value N)} (length : items.length = others.length) (each : ∀ pair ∈ items.zip others, SameJson pair.1 pair.2) :
      SameJson (.array items) (.array others)
  | object {members others : Members N} (names : ∀ name, name ∈ members.map Prod.fst ↔ name ∈ others.map Prod.fst)
      (each : ∀ name value other, (name, value) ∈ members → (name, other) ∈ others → SameJson value other) :
      SameJson (.object members) (.object others)

namespace JsonText

/-- What may follow a value inside a JSON text. -/
def Ended (rest : Text) : Prop := ∀ c, rest.head? = some c → c = unit ',' ∨ c = unit ']' ∨ c = 0x7D

def numeral (value : N) : ℚ := ((readNumber (JsNumber.toText value)).map Prod.fst).getD 0

/-- Finite numbers are written as JSON numerals, and `JSON.parse` and `Number` read one back as the number
nearest to it, which is the number that was written; the two zeros are written alike. -/
structure JsonNumbers (nearest : ℚ → N) : Prop where
  read : ∀ value : N, JsNumber.isFinite value = true → ∀ rest, Ended rest →
    readNumber (JsNumber.toText value ++ rest) = some (numeral value, rest)
  nearest_equal : ∀ value : N, JsNumber.isFinite value = true → JsNumber.equal (nearest (numeral value)) value = true
  nearest_finite : ∀ value : N, JsNumber.isFinite value = true → JsNumber.isFinite (nearest (numeral value)) = true
  ofText_nearest : ∀ value : N, JsNumber.isFinite value = true → JsNumber.ofText (JsNumber.toText value) = nearest (numeral value)
  toText_equal : ∀ value other : N, JsNumber.isFinite value = true → JsNumber.isFinite other = true →
    (JsNumber.equal value other = true ↔ JsNumber.toText value = JsNumber.toText other)

/-- What a value says, its numbers as the numerals they are written as. -/
def jsonOf : Value N → Json
  | .boolean value => .boolean value
  | .number value => .number (numeral value)
  | .text value => .text value
  | .array items => .array (items' items)
  | .object members => .object (members' members)
  | _ => .null
where
  items' : List (Value N) → List Json
    | [] => []
    | item :: rest => jsonOf item :: items' rest
  members' : Members N → List (Text × Json)
    | [] => []
    | (name, value) :: rest => (name, jsonOf value) :: members' rest

/-- The value `JSON.parse` makes of what a text says; objects list their members in their own order. -/
def made (nearest : ℚ → N) : Json → Value N
  | .null => .null
  | .boolean value => .boolean value
  | .number value => .number (nearest value)
  | .text value => .text value
  | .array items => .array (items' items)
  | .object members => .object (ownOrder (members' members))
where
  items' : List Json → List (Value N)
    | [] => []
    | item :: rest => made nearest item :: items' rest
  members' : List (Text × Json) → Members N
    | [] => []
    | (name, value) :: rest => (name, made nearest value) :: members' rest

/-- `JSON.parse`. -/
def jsonParse (nearest : ℚ → N) (text : Text) : Option (Value N) := (parse text).map (made nearest)

section Equations

theorem jsonOf_items : ∀ items : List (Value N), jsonOf.items' items = items.map jsonOf
  | [] => rfl
  | item :: rest => congrArg (jsonOf item :: ·) (jsonOf_items rest)

theorem jsonOf_members : ∀ members : Members N, jsonOf.members' members = members.map fun member => (member.1, jsonOf member.2)
  | [] => rfl
  | (name, value) :: rest => congrArg ((name, jsonOf value) :: ·) (jsonOf_members rest)

theorem jsonOf_array (items : List (Value N)) : jsonOf (.array items) = .array (items.map jsonOf) := by
  rw [jsonOf, jsonOf_items]

theorem jsonOf_object (members : Members N) : jsonOf (.object members) = .object (members.map fun member => (member.1, jsonOf member.2)) := by
  rw [jsonOf, jsonOf_members]

omit [JsNumber N] in
theorem made_items (nearest : ℚ → N) : ∀ items : List Json, made.items' nearest items = items.map (made nearest)
  | [] => rfl
  | item :: rest => congrArg (made nearest item :: ·) (made_items nearest rest)

omit [JsNumber N] in
theorem made_members (nearest : ℚ → N) : ∀ members : List (Text × Json),
    made.members' nearest members = members.map fun member => (member.1, made nearest member.2)
  | [] => rfl
  | (name, value) :: rest => congrArg ((name, made nearest value) :: ·) (made_members nearest rest)

end Equations

section Reading
variable {nearest : ℚ → N}

theorem skip_of_ink {c : CodeUnit} (ink : isJsonSpace c = false) (rest : Text) : skip (c :: rest) = c :: rest :=
  List.dropWhile_cons_of_neg (by rw [ink]; decide)

/-- What a value starts with. -/
def Opens (c : CodeUnit) : Prop :=
  isDigit c = true ∨ c ∈ [unit '-', unit '"', unit '[', 0x7B, unit 't', unit 'f', unit 'n']

theorem Opens.apart {c : CodeUnit} (opens : Opens c) : isJsonSpace c = false ∧ c ≠ unit ']' ∧ c ≠ 0x7D := by
  rcases opens with digit | other
  · have range : 48 ≤ c.toNat ∧ c.toNat ≤ 57 := by simpa [isDigit, UInt16.le_iff_toNat_le] using digit
    refine ⟨?_, ?_, ?_⟩
    · simp only [isJsonSpace, Bool.or_eq_false_iff, beq_eq_false_iff_ne, ne_eq, ← UInt16.toNat_inj, UInt16.reduceToNat]
      omega
    · exact fun bracket => absurd range (by rw [bracket]; decide)
    · exact fun brace => absurd range (by rw [brace]; decide)
  · have each : ∀ c ∈ [unit '-', unit '"', unit '[', 0x7B, unit 't', unit 'f', unit 'n'], isJsonSpace c = false ∧ c ≠ unit ']' ∧ c ≠ 0x7D :=
      each_unit (by decide)
    exact each c other

theorem readNumber_opens {text : Text} {read : ℚ × Text} (isRead : readNumber text = some read) :
    ∃ c rest, text = c :: rest ∧ (isDigit c = true ∨ c = unit '-') := by
  cases text with
  | nil =>
    have nothing : readNumber [] = none := by decide
    rw [nothing] at isRead
    cases isRead
  | cons c rest =>
    refine ⟨c, rest, rfl, ?_⟩
    by_contra other
    obtain ⟨notDigit, notMinus⟩ := not_or.mp other
    have notSigned : ¬(some c = some (unit '-')) := fun same => notMinus (Option.some.inj same)
    have noDigits : (c :: rest).takeWhile isDigit = [] := List.takeWhile_cons_of_neg notDigit
    unfold readNumber at isRead
    simp [notSigned, noDigits] at isRead

theorem stringify_opens (numbers : JsonNumbers nearest) {value : Value N} (isJson : IsJson value) : ∃ c rest, stringify value = c :: rest ∧ Opens c := by
  cases isJson with
  | null => exact ⟨unit 'n', _, rfl, .inr (by decide)⟩
  | boolean value =>
    cases value with
    | true => exact ⟨unit 't', _, rfl, .inr (by decide)⟩
    | false => exact ⟨unit 'f', _, rfl, .inr (by decide)⟩
  | @number value finite =>
    have read := numbers.read value finite [] fun _ none => by cases none
    rw [List.append_nil] at read
    obtain ⟨c, rest, same, digit | minus⟩ := readNumber_opens read
    · exact ⟨c, rest, same, .inl digit⟩
    · exact ⟨c, rest, same, .inr (by rw [minus]; decide)⟩
  | text value => exact ⟨unit '"', _, rfl, .inr (by decide)⟩
  | array _ => exact ⟨unit '[', _, rfl, .inr (by decide)⟩
  | object _ => exact ⟨0x7B, _, rfl, .inr (by decide)⟩

def Reads (value : Value N) : Prop :=
  ∀ steps rest, Ended rest → 2 * (stringify value).length ≤ steps → readValue steps (stringify value ++ rest) = some (jsonOf value, rest)

theorem ended_cons {c : CodeUnit} (ends : c = unit ',' ∨ c = unit ']' ∨ c = 0x7D) (rest : Text) : Ended (c :: rest) := by
  intro d isHead
  rw [← Option.some.inj isHead]
  exact ends

theorem readItems_stringify : ∀ {items : List (Value N)}, items ≠ [] → (∀ item ∈ items, Reads item) → ∀ steps rest,
    2 * (stringify.items' items).length + 1 ≤ steps →
    readItems steps (stringify.items' items ++ unit ']' :: rest) = some (items.map jsonOf, rest)
  | [], nonempty, _, _, _, _ => absurd rfl nonempty
  | _, _, _, 0, _, enough => absurd enough (by omega)
  | [item], _, each, steps + 1, rest, enough => by
    have read := each item (List.mem_singleton_self _) steps (unit ']' :: rest) (ended_cons (.inr (.inl rfl)) rest)
      (by rw [stringify.items'] at enough; omega)
    have noSpace : skip (unit ']' :: rest) = unit ']' :: rest := skip_of_ink (by decide) rest
    have notComma : ¬(some (unit ']') = some (unit ',')) := by decide
    rw [stringify.items', readItems, read]
    simp [noSpace, notComma]
  | item :: next :: rest', _, each, steps + 1, rest, enough => by
    have written : stringify.items' (item :: next :: rest') = stringify item ++ unit ',' :: stringify.items' (next :: rest') := by
      rw [stringify.items']
      · simp [js, unit]
      · simp
    rw [written, List.length_append, List.length_cons] at enough
    have read := each item (List.mem_cons_self ..) steps (unit ',' :: (stringify.items' (next :: rest') ++ unit ']' :: rest))
      (ended_cons (.inl rfl) _) (by omega)
    have more := readItems_stringify (List.cons_ne_nil next rest') (fun item member => each item (List.mem_cons_of_mem _ member)) steps rest (by omega)
    have noSpace : ∀ rest, skip (unit ',' :: rest) = unit ',' :: rest := skip_of_ink (by decide)
    rw [written, List.append_assoc, List.cons_append, readItems, read]
    simp [noSpace, more]

theorem readMembers_stringify : ∀ {members : Members N}, members ≠ [] → (∀ member ∈ members, Reads member.2) → ∀ steps rest,
    2 * (stringify.members' members).length + 1 ≤ steps →
    readMembers steps (stringify.members' members ++ 0x7D :: rest) = some (members.map fun member => (member.1, jsonOf member.2), rest)
  | [], nonempty, _, _, _, _ => absurd rfl nonempty
  | _, _, _, 0, _, enough => absurd enough (by omega)
  | [(name, value)], _, each, steps + 1, rest, enough => by
    have written : stringify.members' [(name, value)] = unit '"' :: (jsonEscapeAll name ++ unit '"' :: unit ':' :: stringify value) := by
      simp [stringify.members', quoteJson, js, unit]
    rw [written] at enough ⊢
    simp only [List.length_cons, List.length_append] at enough
    have read := each (name, value) (List.mem_singleton_self _) steps (0x7D :: rest) (ended_cons (.inr (.inr rfl)) rest) (by dsimp only; omega)
    have noSpace : ∀ {c : CodeUnit} rest, isJsonSpace c = false → skip (c :: rest) = c :: rest := fun rest ink => skip_of_ink ink rest
    have quote : isJsonSpace (unit '"') = false := by decide
    have colon : isJsonSpace (unit ':') = false := by decide
    have brace : isJsonSpace 0x7D = false := by decide
    have notComma : ¬(some (0x7D : CodeUnit) = some (unit ',')) := by decide
    simp only [List.cons_append, List.append_assoc]
    rw [readMembers]
    simp [noSpace, quote, colon, brace, notComma, readString_jsonEscapeAll, read]
  | (name, value) :: next :: more, _, each, steps + 1, rest, enough => by
    have written : stringify.members' ((name, value) :: next :: more) =
        unit '"' :: (jsonEscapeAll name ++ unit '"' :: unit ':' :: (stringify value ++ unit ',' :: stringify.members' (next :: more))) := by
      rw [stringify.members']
      · simp [quoteJson, js, unit]
      · simp
    rw [written] at enough ⊢
    simp only [List.length_cons, List.length_append] at enough
    have read := each (name, value) (List.mem_cons_self ..) steps (unit ',' :: (stringify.members' (next :: more) ++ 0x7D :: rest))
      (ended_cons (.inl rfl) _) (by dsimp only; omega)
    have further := readMembers_stringify (List.cons_ne_nil next more) (fun member inMembers => each member (List.mem_cons_of_mem _ inMembers)) steps rest
      (by omega)
    have noSpace : ∀ {c : CodeUnit} rest, isJsonSpace c = false → skip (c :: rest) = c :: rest := fun rest ink => skip_of_ink ink rest
    have quote : isJsonSpace (unit '"') = false := by decide
    have colon : isJsonSpace (unit ':') = false := by decide
    have comma : isJsonSpace (unit ',') = false := by decide
    simp only [List.cons_append, List.append_assoc]
    rw [readMembers]
    simp [noSpace, quote, colon, comma, readString_jsonEscapeAll, read, further]

theorem foldl_define : ∀ {members known : List (Text × Json)}, ((known ++ members).map Prod.fst).Nodup → members.foldl define known = known ++ members
  | [], known, _ => (List.append_nil known).symm
  | (name, value) :: rest, known, distinct => by
    have fresh : ¬known.any (fun other => other.1 = name) = true := by
      rw [List.map_append, List.nodup_append] at distinct
      intro again
      obtain ⟨other, member, same⟩ := List.any_eq_true.mp again
      exact distinct.2.2 other.1 (List.mem_map_of_mem member) name (List.mem_cons_self ..) (of_decide_eq_true same)
    have put : define known (name, value) = known ++ [(name, value)] := if_neg fresh
    rw [List.foldl_cons, put, foldl_define (by rwa [List.append_assoc]), List.append_assoc]
    rfl

theorem reads_number (numbers : JsonNumbers nearest) {value : N} (finite : JsNumber.isFinite value = true) : Reads (.number value) := by
  intro steps rest ended enough
  have read := numbers.read value finite rest ended
  obtain ⟨c, more, same, opens⟩ := readNumber_opens read
  obtain ⟨d, tail, written, -⟩ := stringify_opens numbers (IsJson.number finite)
  have ink : isJsonSpace c = false := (show Opens c from opens.imp_right fun minus => by rw [minus]; decide).apart.1
  have others : ∀ other ∈ [unit '"', unit '[', 0x7B, unit 't', unit 'f', unit 'n'], c ≠ other := by
    intro other member
    rcases opens with digit | minus
    · rintro rfl
      have none : ∀ other ∈ [unit '"', unit '[', 0x7B, unit 't', unit 'f', unit 'n'], isDigit other = false :=
        each_unit (by decide)
      exact absurd digit (by rw [none c member]; decide)
    · rintro rfl
      rw [minus] at member
      exact absurd member (by decide)
  simp only [List.forall_mem_cons] at others
  obtain ⟨quote, bracket, brace, t, f, n, -⟩ := others
  have noSpace : skip (c :: more) = c :: more := skip_of_ink ink more
  cases steps with
  | zero =>
    rw [written] at enough
    cases enough
  | succ steps =>
    show readValue (steps + 1) (JsNumber.toText value ++ rest) = _
    rw [same] at read ⊢
    simp [readValue, noSpace, quote, bracket, brace, t, f, n, read, jsonOf]

theorem reads_array (numbers : JsonNumbers nearest) {items : List (Value N)} (isItem : ∀ item ∈ items, IsJson item)
    (each : ∀ item ∈ items, Reads item) : Reads (.array items) := by
  intro steps rest _ enough
  have written : stringify (.array items) = unit '[' :: (stringify.items' items ++ [unit ']']) := by
    simp [stringify, js, unit]
  rw [written] at enough ⊢
  simp only [List.length_cons, List.length_append, List.length_nil] at enough
  have open_ : ∀ rest, skip (unit '[' :: rest) = unit '[' :: rest := skip_of_ink (by decide)
  have close : ∀ rest, skip (unit ']' :: rest) = unit ']' :: rest := skip_of_ink (by decide)
  have notQuote : ¬(some (unit '[') = some (unit '"')) := by decide
  cases steps with
  | zero => omega
  | succ steps =>
    cases items with
    | nil => simp [stringify.items', readValue, open_, close, notQuote, jsonOf_array]
    | cons item more =>
      obtain ⟨c, tail, isOpen, opens⟩ := stringify_opens numbers (isItem item (List.mem_cons_self ..))
      have first : ∃ tail, stringify.items' (item :: more) = c :: tail := by
        cases more with
        | nil => exact ⟨_, isOpen⟩
        | cons next more => exact ⟨_, by rw [stringify.items', isOpen]; rfl; simp⟩
      obtain ⟨tail', isFirst⟩ := first
      have noSpace : ∀ rest, skip (c :: rest) = c :: rest := skip_of_ink opens.apart.1
      have notClose : ¬(some c = some (unit ']')) := fun same => opens.apart.2.1 (Option.some.inj same)
      have read := readItems_stringify (List.cons_ne_nil item more) each steps rest (by omega)
      rw [isFirst] at read ⊢
      simp only [List.cons_append, List.append_assoc, List.nil_append] at read ⊢
      simp [readValue, open_, notQuote, noSpace, notClose, read, jsonOf_array]

theorem reads_object {members : Members N} (distinct : (members.map Prod.fst).Nodup) (each : ∀ member ∈ members, Reads member.2) :
    Reads (.object members) := by
  intro steps rest _ enough
  have written : stringify (.object members) = 0x7B :: (stringify.members' members ++ [0x7D]) := by
    simp [stringify, js]
  rw [written] at enough ⊢
  simp only [List.length_cons, List.length_append, List.length_nil] at enough
  have open_ : ∀ rest, skip (0x7B :: rest) = 0x7B :: rest := skip_of_ink (by decide)
  have close : ∀ rest, skip (0x7D :: rest) = 0x7D :: rest := skip_of_ink (by decide)
  have notQuote : ¬(some (0x7B : CodeUnit) = some (unit '"')) := by decide
  have notBracket : ¬(some (0x7B : CodeUnit) = some (unit '[')) := by decide
  cases steps with
  | zero => omega
  | succ steps =>
    cases members with
    | nil => simp [stringify.members', readValue, open_, close, notQuote, notBracket, jsonOf_object]
    | cons member more =>
      have first : ∃ tail, stringify.members' (member :: more) = unit '"' :: tail := by
        obtain ⟨name, value⟩ := member
        cases more with
        | nil => exact ⟨_, rfl⟩
        | cons next more => exact ⟨_, by rw [stringify.members']; rfl; simp⟩
      obtain ⟨tail', isFirst⟩ := first
      have noSpace : ∀ rest, skip (unit '"' :: rest) = unit '"' :: rest := skip_of_ink (by decide)
      have notClose : ¬(some (unit '"') = some (0x7D : CodeUnit)) := by decide
      have read := readMembers_stringify (List.cons_ne_nil member more) each steps rest (by omega)
      have kept : ((member :: more).map fun member => (member.1, jsonOf member.2)).foldl define [] =
          (member :: more).map fun member => (member.1, jsonOf member.2) := by
        rw [foldl_define, List.nil_append]
        rwa [List.nil_append, List.map_map]
      rw [isFirst] at read ⊢
      simp only [List.cons_append, List.append_assoc, List.nil_append] at read ⊢
      rw [readValue]
      simp only [open_, List.head?_cons, notQuote, notBracket, noSpace, notClose, if_false, if_true, List.tail_cons, read, Option.map_some, kept,
        jsonOf_object]

theorem reads_of_isJson (numbers : JsonNumbers nearest) (value : Value N) (isJson : IsJson value) (named : Named value) : Reads value := by
  induction value using Value.onParts with
  | undefined => cases isJson
  | date time => cases isJson
  | builtin name => cases isJson
  | null =>
    intro steps rest _ enough
    cases steps with
    | zero => cases enough
    | succ steps => simp [stringify, readValue, skip, isJsonSpace, js, unit, readWord, jsonOf]
  | boolean value =>
    intro steps rest _ enough
    cases steps with
    | zero => cases value <;> cases enough
    | succ steps => cases value <;> simp [stringify, readValue, skip, isJsonSpace, js, unit, readWord, jsonOf]
  | number value =>
    cases isJson with
    | number finite => exact reads_number numbers finite
  | text value =>
    intro steps rest _ enough
    cases steps with
    | zero => simp [stringify, quoteJson] at enough
    | succ steps =>
      have noSpace : ∀ rest, skip (unit '"' :: rest) = unit '"' :: rest := skip_of_ink (by decide)
      simp [stringify, quoteJson, readValue, noSpace, readString_jsonEscapeAll, jsonOf]
  | array items each =>
    cases isJson with
    | array isItem =>
      cases named with
      | array namedItem => exact reads_array numbers isItem fun item member => each item member (isItem item member) (namedItem item member)
  | object members each =>
    cases isJson with
    | object isMember =>
      cases named with
      | object distinct namedMember =>
        exact reads_object distinct fun member inMembers => each member inMembers (isMember member inMembers) (namedMember member inMembers)

theorem parse_stringify (numbers : JsonNumbers nearest) {value : Value N} (isJson : IsJson value) (named : Named value) :
    parse (stringify value) = some (jsonOf value) := by
  have read := reads_of_isJson numbers value isJson named (2 * (stringify value).length + 2) [] (fun _ none => by cases none) (by omega)
  rw [List.append_nil] at read
  have whole : skip [] = [] := rfl
  unfold parse
  rw [read]
  show (if skip [] = [] then some (jsonOf value) else none) = some (jsonOf value)
  rw [if_pos whole]

end Reading

end JsonText

end OpenShapeForge.Js
