import OpenShapeForge.Library.Failing
import OpenShapeForge.Library.Run
import OpenShapeForge.Operations.TypedValues

/-! What a record stores and shows of a confidential typed value, over its creates and updates. -/

namespace OpenShapeForge.Operations.SecretValues
open Js Library Library.Failing TypedValues

variable {N Schema Nonce : Type}

/-- A table as the compiler writes it: typed values, their definitions, the document carriers and the
primary key are columns of their own. -/
structure CompiledTable (N : Type) extends Table N where
  names : (columns.map Column.name).Nodup
  fields : (columns.map Column.field).Nodup
  plain : ∀ value ∈ columns, ∀ typed, value.typedBy = some typed → ∀ column ∈ columns,
    column.name = typed.definitionColumn ∨ typed.documentColumn = some column.name → column.typedBy = none
  carriers : ∀ value ∈ columns, ∀ typed, value.typedBy = some typed → ∀ other ∈ columns, ∀ otherTyped, other.typedBy = some otherTyped →
    typed.documentColumn ≠ some otherTyped.definitionColumn
  identity : ∀ value ∈ columns, ∀ typed, value.typedBy = some typed → value.name ≠ primaryKey ∧ typed.definitionColumn ≠ primaryKey ∧
    typed.documentColumn ≠ some primaryKey

section Pairs
variable {table : Table N} {pairs : List (Pair N)} {pair : Pair N}

structure PairOf (table : Table N) (pair : Pair N) : Prop where
  value : pair.value ∈ table.columns
  typed : pair.value.typedBy = some pair.typed
  definition : pair.definition ∈ table.columns
  name : pair.definition.name = pair.typed.definitionColumn

theorem pairs_of_columns : ∀ {columns : List (Column N)} {found : List (Option (Pair N))} {lookup : Column N → Except Failure (Option (Pair N))},
    (∀ column, ∀ result, lookup column = .ok (some result) → result.value = column) → columns.mapM lookup = .ok found →
    ((found.filterMap id).map Pair.value).Sublist columns
  | [], found, lookup, _, ok => by
    rw [List.mapM_nil] at ok
    obtain rfl := Except.ok.inj ok
    exact List.Sublist.refl []
  | column :: rest, found, lookup, same, ok => by
    rw [List.mapM_cons, attempt_bind_ok] at ok
    obtain ⟨first, here, ok⟩ := ok
    rw [attempt_bind_ok] at ok
    obtain ⟨others, later, ok⟩ := ok
    obtain rfl := Except.ok.inj ok
    have tail := pairs_of_columns same later
    cases first with
    | none => exact tail.cons column
    | some result =>
      change (result.value :: (others.filterMap id).map Pair.value).Sublist (column :: rest)
      rw [same column result here]
      exact tail.cons_cons column

theorem typedValueColumns_ok (ok : typedValueColumns table = .ok pairs) :
    (pairs.map Pair.value).Sublist table.columns ∧ ∀ pair ∈ pairs, PairOf table pair := by
  unfold typedValueColumns at ok
  rw [attempt_bind_ok] at ok
  obtain ⟨found, looked, ok⟩ := ok
  obtain rfl := Except.ok.inj ok
  constructor
  · apply pairs_of_columns _ looked
    intro column result isResult
    split at isResult
    next => cases isResult
    next =>
      split at isResult
      next =>
        split at isResult
        next => cases isResult; rfl
        next => cases isResult
      next => cases isResult
  · intro pair member
    obtain ⟨option, inFound, isPair⟩ := List.mem_filterMap.mp member
    rw [id_eq] at isPair
    subst isPair
    obtain ⟨column, inColumns, isResult⟩ := mem_attempts looked _ inFound
    split at isResult
    next => cases isResult
    next typed isTyped =>
      split at isResult
      next definition isFound =>
        split at isResult
        next =>
          cases isResult
          have isName := List.find?_some isFound
          exact ⟨inColumns, isTyped, List.mem_of_find?_eq_some isFound, of_decide_eq_true isName⟩
        next => cases isResult
      next => cases isResult

end Pairs

section Apart
variable {table : CompiledTable N} {pairs : List (Pair N)}

theorem names_inj {column other : Column N} (member : column ∈ table.columns) (also : other ∈ table.columns) (same : column.name = other.name) :
    column = other := List.inj_on_of_nodup_map table.names member also same

theorem value_names_nodup (ok : typedValueColumns table.toTable = .ok pairs) : (pairs.map fun pair => pair.value.name).Nodup := by
  have within := ((typedValueColumns_ok ok).1.map Column.name).nodup table.names
  rwa [List.map_map] at within

/-- A value is no definition and no carrier, and a carrier is no definition. -/
theorem apart {pair other : Pair N} (first : PairOf table.toTable pair) (second : PairOf table.toTable other) :
    pair.value.name ≠ other.definition.name ∧ other.typed.documentColumn ≠ some pair.value.name ∧
      other.typed.documentColumn ≠ some pair.definition.name := by
  have typed : pair.value.typedBy ≠ none := by
    rw [first.typed]
    exact Option.some_ne_none _
  constructor
  · intro same
    exact typed (table.plain other.value second.value other.typed second.typed pair.value first.value (.inl (same.trans second.name)))
  · constructor
    · intro carrier
      exact typed (table.plain other.value second.value other.typed second.typed pair.value first.value (.inr carrier))
    · rw [first.name]
      exact table.carriers other.value second.value other.typed second.typed pair.value first.value pair.typed first.typed

end Apart

variable [JsNumber N] {platform : Platform N Schema Nonce} {scope : Text} {current : Option (Cells N)} {pair : Pair N}
  {stored : Value N} {before after : Draft N}

section Frames
variable {name written : Text} {value : Value N}

/-- One column's value in the write and in the row that it is checked against. -/
structure SameAt (name : Text) (before after : Draft N) : Prop where
  output : after.output name = before.output name
  current : (after.current.getD fun _ => none) name = (before.current.getD fun _ => none) name

omit [JsNumber N]

theorem SameAt.refl (draft : Draft N) : SameAt name draft draft := ⟨rfl, rfl⟩

theorem SameAt.trans {middle : Draft N} (first : SameAt name before middle) (second : SameAt name middle after) : SameAt name before after :=
  ⟨second.output.trans first.output, second.current.trans first.current⟩

@[simp] theorem set_output (draft : Draft N) (name : Text) (value : Value N) : (draft.set name value).output name = some value :=
  Function.update_self _ _ _

theorem set_same (other : name ≠ written) (draft : Draft N) : SameAt name draft (draft.set written value) :=
  ⟨Function.update_of_ne other _ _, rfl⟩

theorem check_same (other : name ≠ written) (draft : Draft N) : SameAt name draft (draft.check written value) := by
  refine ⟨rfl, ?_⟩
  cases isCurrent : draft.current with
  | none =>
    unfold Draft.check
    rw [isCurrent]
    rfl
  | some row =>
    unfold Draft.check
    rw [isCurrent]
    exact Function.update_of_ne other _ _

end Frames

section Others
variable {name : Text} {nonce : Nonce} {table : Table N}

theorem applyDraft_frame (other : name ≠ pair.value.name) (ok : applyDraft platform current pair stored before = .ok after) :
    SameAt name before after := by
  unfold applyDraft at ok
  split at ok
  next =>
    split at ok
    next =>
      obtain ⟨drafted, -, isAfter⟩ := attempt_bind_ok.mp ok
      obtain rfl := Except.ok.inj isAfter
      exact set_same other before
    next => cases ok
  next =>
    obtain rfl := Except.ok.inj ok
    exact SameAt.refl _

theorem checkCarrier_frame (other : name ≠ pair.value.name) : SameAt name before (checkCarrier current pair stored before) := by
  unfold checkCarrier
  split
  next => exact check_same other before
  next => exact SameAt.refl _

theorem openSecret_frame (other : name ≠ pair.value.name) (ok : openSecret platform scope current pair stored before = .ok after) :
    SameAt name before after := by
  unfold openSecret at ok
  dsimp only at ok
  split at ok
  next =>
    split at ok
    next members _ =>
      obtain ⟨plaintext, -, isAfter⟩ := attempt_bind_ok.mp ok
      obtain rfl := Except.ok.inj isAfter
      split
      next => exact (check_same other before).trans (set_same other _)
      next => exact check_same other before
    next =>
      split at ok
      next => cases ok
      next =>
        obtain rfl := Except.ok.inj ok
        exact SameAt.refl _
  next =>
    obtain rfl := Except.ok.inj ok
    exact SameAt.refl _

theorem openPair_frame (other : name ≠ pair.value.name) (ok : openPair platform scope current pair before = .ok after) :
    SameAt name before after := by
  obtain ⟨drafted, applied, opened⟩ := attempt_bind_ok.mp ok
  exact ((applyDraft_frame other applied).trans (checkCarrier_frame other)).trans (openSecret_frame other opened)

theorem storeDocument_frame (other : name ≠ pair.value.name) (carrier : pair.typed.documentColumn ≠ some name)
    (ok : storeDocument platform table current pair stored before = .ok after) : SameAt name before after := by
  unfold storeDocument at ok
  split at ok
  next => cases ok
  next column isColumn =>
    have different : name ≠ column := by
      intro same
      rw [same] at carrier
      exact carrier (Option.filter_eq_some_iff.mp isColumn).1
    dsimp only at ok
    split at ok
    next =>
      obtain rfl := Except.ok.inj ok
      exact (set_same different before).trans (set_same other _)
    next =>
      obtain ⟨-, -, isAfter⟩ := attempt_bind_ok.mp ok
      obtain rfl := Except.ok.inj isAfter
      exact (set_same different before).trans (set_same other _)

omit [JsNumber N] in
theorem clearCarrier_frame (carrier : pair.typed.documentColumn ≠ some name) : SameAt name before (clearCarrier pair before) := by
  unfold clearCarrier
  split
  next column isColumn =>
    have different : name ≠ column := by
      intro same
      rw [same] at carrier
      exact carrier isColumn
    exact set_same different before
  next => exact SameAt.refl _

theorem sealSecret_frame (other : name ≠ pair.value.name) (ok : sealSecret platform nonce scope current pair stored before = .ok after) :
    SameAt name before after := by
  unfold sealSecret at ok
  dsimp only at ok
  split at ok
  next =>
    split at ok
    next =>
      split at ok
      next =>
        obtain rfl := Except.ok.inj ok
        exact set_same other before
      next =>
        obtain ⟨envelope, -, isAfter⟩ := attempt_bind_ok.mp ok
        obtain rfl := Except.ok.inj isAfter
        exact set_same other before
    next => cases ok
  next =>
    obtain rfl := Except.ok.inj ok
    exact SameAt.refl _

theorem sealPair_frame (other : name ≠ pair.value.name) (carrier : pair.typed.documentColumn ≠ some name)
    (ok : sealPair platform nonce table scope current pair before = .ok after) : SameAt name before after := by
  unfold sealPair at ok
  split at ok
  next =>
    obtain rfl := Except.ok.inj ok
    exact SameAt.refl _
  next =>
    dsimp only at ok
    split at ok
    next => exact storeDocument_frame other carrier ok
    next => exact (clearCarrier_frame carrier).trans (sealSecret_frame other ok)

end Others

section Own
variable {nonce : Nonce} {table : Table N}

omit [JsNumber N] in
theorem cell_of_isText {cells : Cells N} {name text : Text} (same : isText (cell cells name) text = true) : cells name = some (.text text) := by
  unfold cell at same
  cases value : cells name with
  | none =>
    rw [value] at same
    cases same
  | some found =>
    rw [value, Option.getD_some] at same
    cases found with
    | text other => rw [of_decide_eq_true same]
    | _ => cases same

omit [JsNumber N] in
theorem check_cell {draft : Draft N} {name : Text} {value other : Value N} (present : (draft.current.getD fun _ => none) name = some other) :
    cell ((draft.check name value).current.getD fun _ => none) name = value := by
  cases isCurrent : draft.current with
  | none =>
    rw [isCurrent] at present
    cases present
  | some row =>
    unfold Draft.check cell
    rw [isCurrent]
    change (Function.update row name (some value) name).getD .undefined = value
    rw [Function.update_self]
    rfl

theorem openPair_carried (ok : openPair platform scope current pair before = .ok after) :
    (after.output pair.value.name).isNone = (before.output pair.value.name).isNone := by
  obtain ⟨drafted, applied, opened⟩ := attempt_bind_ok.mp ok
  have isDrafted : (drafted.output pair.value.name).isNone = (before.output pair.value.name).isNone := by
    unfold applyDraft at applied
    split at applied
    next carrier isCarrier isDraft =>
      split at applied
      next =>
        obtain ⟨value, -, isAfter⟩ := attempt_bind_ok.mp applied
        obtain rfl := Except.ok.inj isAfter
        have carries : before.output pair.value.name ≠ none := by
          intro absent
          unfold cell at isDraft
          rw [absent] at isDraft
          simp [Value.isObject] at isDraft
        obtain ⟨written, isWritten⟩ := Option.ne_none_iff_exists'.mp carries
        rw [set_output, isWritten]
        rfl
      next => cases applied
    next =>
      obtain rfl := Except.ok.inj applied
      rfl
  have isChecked : (checkCarrier current pair (definitionOf before.output current pair) drafted).output = drafted.output := by
    unfold checkCarrier
    split <;> rfl
  unfold openSecret at opened
  dsimp only at opened
  rw [isChecked] at opened
  rw [← isDrafted]
  split at opened
  next =>
    split at opened
    next =>
      obtain ⟨plaintext, -, isAfter⟩ := attempt_bind_ok.mp opened
      obtain rfl := Except.ok.inj isAfter
      split
      next repeated =>
        rw [set_output, cell_of_isText repeated]
        rfl
      next => exact congrArg (fun output => (output pair.value.name).isNone) isChecked
    next =>
      split at opened
      next => cases opened
      next =>
        obtain rfl := Except.ok.inj opened
        exact congrArg (fun output => (output pair.value.name).isNone) isChecked
  next =>
    obtain rfl := Except.ok.inj opened
    exact congrArg (fun output => (output pair.value.name).isNone) isChecked

theorem openPair_plain (plain : isDocument (definitionOf before.output current pair) = false)
    (ok : openPair platform scope current pair before = .ok after) :
    openSecret platform scope current pair (definitionOf before.output current pair) before = .ok after := by
  obtain ⟨drafted, applied, opened⟩ := attempt_bind_ok.mp ok
  have isDrafted : drafted = before := by
    unfold applyDraft at applied
    rw [plain, Bool.false_and] at applied
    split at applied
    next never => cases never
    next => exact (Except.ok.inj applied).symm
  have isChecked : checkCarrier current pair (definitionOf before.output current pair) before = before := by
    unfold checkCarrier
    rw [plain]
    split
    next never => cases never
    next => rfl
  rw [isDrafted, isChecked] at opened
  exact opened

theorem openSecret_ordinary (ordinary : secretDefinition stored = false) (ok : openSecret platform scope current pair stored before = .ok after) :
    after = before := by
  unfold openSecret at ok
  rw [ordinary, Bool.and_false] at ok
  exact (Except.ok.inj ok).symm

theorem openSecret_secret (encrypted : pair.typed.encrypted = true) (secret : secretDefinition stored = true)
    (sameRow : (before.current.getD fun _ => none) pair.value.name = (current.getD fun _ => none) pair.value.name)
    (ok : openSecret platform scope current pair stored before = .ok after) :
    (∃ members plaintext, cell (current.getD fun _ => none) pair.value.name = .object members ∧
      platform.decryptSecret scope pair.value.name members = .ok plaintext ∧
      cell (after.current.getD fun _ => none) pair.value.name = .text plaintext ∧
      after.output pair.value.name = if isText (cell before.output pair.value.name) SECRET_SET_SENTINEL then some (.text plaintext)
        else before.output pair.value.name) ∨
    ((cell (current.getD fun _ => none) pair.value.name).isObject = false ∧
      isText (cell before.output pair.value.name) SECRET_SET_SENTINEL = false ∧ after = before) := by
  unfold openSecret at ok
  dsimp only at ok
  rw [encrypted, secret] at ok
  cases existing : cell (current.getD fun _ => none) pair.value.name with
  | object members =>
    rw [existing] at ok
    obtain ⟨plaintext, opens, isAfter⟩ := attempt_bind_ok.mp ok
    obtain rfl := Except.ok.inj isAfter
    have present : (before.current.getD fun _ => none) pair.value.name = some (.object members) := by
      rw [sameRow]
      unfold cell at existing
      cases held : (current.getD fun _ => none) pair.value.name with
      | none =>
        rw [held] at existing
        cases existing
      | some value =>
        rw [held] at existing
        exact congrArg some existing
    refine .inl ⟨members, plaintext, rfl, opens, ?_, ?_⟩
    · split
      next => exact check_cell present
      next => exact check_cell present
    · split
      next repeated => exact set_output _ _ _
      next => rfl
  | _ =>
    rw [existing] at ok
    cases repeated : isText (cell before.output pair.value.name) SECRET_SET_SENTINEL with
    | true =>
      rw [repeated] at ok
      cases ok
    | false =>
      rw [repeated] at ok
      exact .inr ⟨rfl, rfl, (Except.ok.inj ok).symm⟩

theorem storeDocument_carrier (ok : storeDocument platform table current pair stored before = .ok after) :
    pair.typed.documentColumn.isSome = true := by
  unfold storeDocument at ok
  split at ok
  next => cases ok
  next carrier isCarrier =>
    rw [(Option.filter_eq_some_iff.mp isCarrier).1]
    rfl

theorem storeDocument_value (ok : storeDocument platform table current pair stored before = .ok after) :
    after.output pair.value.name = some .null := by
  unfold storeDocument at ok
  split at ok
  next => cases ok
  next =>
    dsimp only at ok
    split at ok
    next =>
      obtain rfl := Except.ok.inj ok
      exact set_output _ _ _
    next =>
      obtain ⟨-, -, isAfter⟩ := attempt_bind_ok.mp ok
      obtain rfl := Except.ok.inj isAfter
      exact set_output _ _ _

theorem sealSecret_ordinary (ordinary : secretDefinition stored = false)
    (ok : sealSecret platform nonce scope current pair stored before = .ok after) : after = before := by
  unfold sealSecret at ok
  dsimp only at ok
  rw [ordinary, Bool.and_false, Bool.false_and] at ok
  exact (Except.ok.inj ok).symm

theorem sealSecret_secret (encrypted : pair.typed.encrypted = true) (secret : secretDefinition stored = true)
    (ok : sealSecret platform nonce scope current pair stored before = .ok after) :
    ((cell before.output pair.value.name).isNullish = true ∧ after = before) ∨
    ∃ plaintext, cell before.output pair.value.name = .text plaintext ∧
      (((cell (current.getD fun _ => none) pair.value.name).isObject = true ∧
          isText (cell (before.current.getD fun _ => none) pair.value.name) plaintext = true ∧
          after.output pair.value.name = some (cell (current.getD fun _ => none) pair.value.name)) ∨
        (((cell (current.getD fun _ => none) pair.value.name).isObject &&
            isText (cell (before.current.getD fun _ => none) pair.value.name) plaintext) = false ∧
          ∃ envelope, platform.encryptSecret nonce scope pair.value.name plaintext = .ok envelope ∧
            after.output pair.value.name = some (.object envelope))) := by
  unfold sealSecret at ok
  dsimp only at ok
  rw [encrypted, secret] at ok
  cases nullish : (cell before.output pair.value.name).isNullish with
  | true =>
    rw [nullish] at ok
    exact .inl ⟨rfl, (Except.ok.inj ok).symm⟩
  | false =>
    rw [nullish] at ok
    cases value : cell before.output pair.value.name with
    | text plaintext =>
      have reads : (true && true && !false) = true := rfl
      rw [value, if_pos reads] at ok
      refine .inr ⟨plaintext, rfl, ?_⟩
      dsimp only at ok
      split at ok
      next same =>
        obtain ⟨isEnvelope, isPlaintext⟩ := Bool.and_eq_true_iff.mp same
        obtain rfl := Except.ok.inj ok
        exact .inl ⟨isEnvelope, isPlaintext, set_output _ _ _⟩
      next changed =>
        obtain ⟨envelope, encrypts, isAfter⟩ := attempt_bind_ok.mp ok
        obtain rfl := Except.ok.inj isAfter
        exact .inr ⟨Bool.eq_false_iff.mpr changed, envelope, encrypts, set_output _ _ _⟩
    | _ =>
      rw [value] at ok
      cases ok

end Own

section Pairwise

/-- What an accepted write stores of a pair that it touches: `written` is the value it carries, and `kept` the one it stores. -/
inductive Settles (platform : Platform N Schema Nonce) (scope : Text) (pair : Pair N) (existing definition : Value N) :
    Option (Value N) → Option (Value N) → Prop
  | document {written} : isDocument definition = true → pair.typed.documentColumn.isSome = true → Settles platform scope pair existing definition written (some .null)
  | ordinary {written} : secretDefinition definition = false → isDocument definition = false →
      Settles platform scope pair existing definition written written
  | absent : secretDefinition definition = true → (∀ members, existing = .object members → ∃ plaintext, platform.decryptSecret scope pair.value.name members = .ok plaintext) →
      Settles platform scope pair existing definition none none
  | cleared {value} : value.isNullish = true → Settles platform scope pair existing definition (some value) (some value)
  /-- The sentinel, or the plaintext that is stored. -/
  | repeated {members plaintext text} : secretDefinition definition = true → existing = .object members → platform.decryptSecret scope pair.value.name members = .ok plaintext →
      text = SECRET_SET_SENTINEL ∨ (text = plaintext ∧ text ≠ SECRET_SET_SENTINEL) →
      Settles platform scope pair existing definition (some (.text text)) (some existing)
  | sealed {nonce plaintext envelope} : secretDefinition definition = true → plaintext ≠ SECRET_SET_SENTINEL →
      platform.encryptSecret nonce scope pair.value.name plaintext = .ok envelope →
      Settles platform scope pair existing definition (some (.text plaintext)) (some (.object envelope))

variable {nonce : Nonce} {table : Table N} {opened settled : Draft N}

theorem settles_secret (encrypted : pair.typed.encrypted = true) (secret : secretDefinition stored = true) {middle : Draft N}
    (sameRow : (before.current.getD fun _ => none) pair.value.name = (current.getD fun _ => none) pair.value.name)
    (opens : openSecret platform scope current pair stored before = .ok opened)
    (sameOpened : SameAt pair.value.name opened middle)
    (seals : sealSecret platform nonce scope current pair stored middle = .ok settled) :
    Settles platform scope pair (cell (current.getD fun _ => none) pair.value.name) stored (before.output pair.value.name)
      (settled.output pair.value.name) := by
  have sameCell : cell middle.output pair.value.name = cell opened.output pair.value.name := by
    unfold cell
    rw [sameOpened.output]
  have sameCurrent : cell (middle.current.getD fun _ => none) pair.value.name = cell (opened.current.getD fun _ => none) pair.value.name := by
    unfold cell
    rw [sameOpened.current]
  have left : ∀ {written : Option (Value N)}, (∀ members, cell (current.getD fun _ => none) pair.value.name = .object members →
      ∃ plaintext, platform.decryptSecret scope pair.value.name members = .ok plaintext) → (written.getD .undefined).isNullish = true →
      Settles platform scope pair (cell (current.getD fun _ => none) pair.value.name) stored written written := by
    intro written decrypts nullish
    cases written with
    | none => exact .absent secret decrypts
    | some value => exact .cleared nullish
  have isWritten : ∀ {cells : Cells N} {text : Text}, cell cells pair.value.name = .text text → cells pair.value.name = some (.text text) := by
    intro cells text isValue
    apply cell_of_isText
    rw [isValue]
    exact decide_eq_true rfl
  have notSentinel : ∀ {text : Text}, isText (cell before.output pair.value.name) SECRET_SET_SENTINEL = false →
      cell before.output pair.value.name = .text text → text ≠ SECRET_SET_SENTINEL := by
    intro text other isValue same
    rw [isValue, same] at other
    simp [isText] at other
  rcases openSecret_secret encrypted secret sameRow opens with ⟨members, plaintext, isMembers, decrypts, isOpened, output⟩ | ⟨isPlain, other, same⟩
  · have opensTo : ∀ {text : Text}, isText (cell (middle.current.getD fun _ => none) pair.value.name) text = true → text = plaintext := by
      intro text isText
      rw [sameCurrent, isOpened] at isText
      exact (of_decide_eq_true isText).symm
    split at output
    next sentinel =>
      -- The sentinel has become the plaintext that is stored, and its envelope is kept.
      have isCarried : cell middle.output pair.value.name = .text plaintext := by
        rw [sameCell]
        unfold cell
        rw [output]
        rfl
      rw [cell_of_isText sentinel]
      rcases sealSecret_secret encrypted secret seals with ⟨nullish, -⟩ | ⟨text, isText, kept⟩
      · rw [isCarried] at nullish
        cases nullish
      · rw [isCarried] at isText
        obtain rfl := Value.text.inj isText
        rcases kept with ⟨-, -, settles⟩ | ⟨changed, -⟩
        · rw [settles]
          exact .repeated secret isMembers decrypts (.inl rfl)
        · rw [isMembers, sameCurrent, isOpened] at changed
          exact absurd changed (by simp [Value.isObject, TypedValues.isText])
    next other =>
      have isCell : cell opened.output pair.value.name = cell before.output pair.value.name := by
        unfold cell
        rw [output]
      rcases sealSecret_secret encrypted secret seals with ⟨nullish, isSettled⟩ | ⟨text, isText, kept⟩
      · rw [isSettled, sameOpened.output, output]
        rw [sameCell, isCell] at nullish
        apply left _ nullish
        intro found isFound
        rw [isMembers] at isFound
        rw [← Value.object.inj isFound]
        exact ⟨plaintext, decrypts⟩
      · rw [sameCell, isCell] at isText
        have different := notSentinel (Bool.eq_false_iff.mpr other) isText
        rw [isWritten isText]
        rcases kept with ⟨-, same, settles⟩ | ⟨-, envelope, encrypts, settles⟩
        · rw [settles]
          exact .repeated secret isMembers decrypts (.inr ⟨opensTo same, different⟩)
        · rw [settles]
          exact .sealed secret different encrypts
  · rw [same] at sameCell
    rcases sealSecret_secret encrypted secret seals with ⟨nullish, isSettled⟩ | ⟨text, isText, kept⟩
    · rw [isSettled, sameOpened.output, same]
      rw [sameCell] at nullish
      apply left _ nullish
      intro members isMembers
      rw [isMembers] at isPlain
      cases isPlain
    · rw [sameCell] at isText
      rw [isWritten isText]
      rcases kept with ⟨isEnvelope, -⟩ | ⟨-, envelope, encrypts, settles⟩
      · rw [isPlain] at isEnvelope
        cases isEnvelope
      · rw [settles]
        exact .sealed secret (notSentinel other isText) encrypts

theorem settles_pair (encrypted : pair.typed.encrypted = true) {middle : Draft N} (apart : pair.typed.documentColumn ≠ some pair.value.name)
    (sameRow : (before.current.getD fun _ => none) pair.value.name = (current.getD fun _ => none) pair.value.name)
    (isStored : definitionOf middle.output current pair = definitionOf before.output current pair)
    (opens : openPair platform scope current pair before = .ok opened) (sameOpened : SameAt pair.value.name opened middle)
    (touched : ((middle.output pair.value.name).isNone && (middle.output pair.definition.name).isNone) = false)
    (seals : sealPair platform nonce table scope current pair middle = .ok settled) :
    Settles platform scope pair (cell (current.getD fun _ => none) pair.value.name) (definitionOf before.output current pair)
      (before.output pair.value.name) (settled.output pair.value.name) := by
  unfold sealPair at seals
  dsimp only at seals
  rw [touched, isStored] at seals
  cases isDoc : isDocument (definitionOf before.output current pair) with
  | true =>
    rw [isDoc] at seals
    rw [storeDocument_value seals]
    exact .document isDoc (storeDocument_carrier seals)
  | false =>
    rw [isDoc] at seals
    have plainly := openPair_plain isDoc opens
    have cleared : SameAt pair.value.name middle (clearCarrier pair middle) := clearCarrier_frame apart
    cases secret : secretDefinition (definitionOf before.output current pair) with
    | true => exact settles_secret encrypted secret sameRow plainly (sameOpened.trans cleared) seals
    | false =>
      rw [sealSecret_ordinary secret seals, cleared.output, sameOpened.output, openSecret_ordinary secret plainly]
      exact .ordinary secret isDoc

end Pairwise

section Checks
variable {table : CompiledTable N} {pairs : List (Pair N)} {values : Cells N} {held : Option (Cells N)}

omit [JsNumber N] in
theorem authored_field {column : Column N} (member : column ∈ table.columns) (output : Cells N) :
    authored table.toTable output column.field = output column.name := by
  have found : table.columns.find? (fun other => other.field = column.field) = some column := by
    cases isFound : table.columns.find? (fun other => other.field = column.field) with
    | none =>
      have never := List.find?_eq_none.mp isFound column member
      exact absurd (decide_eq_true rfl) never
    | some other =>
      have sameField := List.find?_some isFound
      exact congrArg some (List.inj_on_of_nodup_map table.fields (List.mem_of_find?_eq_some isFound) member (of_decide_eq_true sameField))
  unfold authored
  rw [found]
  rfl

theorem each_valid (ok : assertTypedValuesValid platform pairs values held = .ok ()) :
    ∀ pair ∈ pairs, assertPairValid platform values held pair = .ok () := forM_ok ok

theorem valid_supported (ok : assertPairValid platform values held pair = .ok ())
    (touched : ((values pair.value.field).isNone && (values pair.definition.field).isNone) = false) :
    ((values pair.definition.field).getD (cell (held.getD fun _ => none) pair.definition.name)).isObject = true ∧
      definitionSupported platform ((values pair.definition.field).getD (cell (held.getD fun _ => none) pair.definition.name))
        pair.definition.field pair.typed = true := by
  unfold assertPairValid at ok
  dsimp only at ok
  rw [touched] at ok
  split at ok
  next never => cases never
  next =>
    split at ok
    next => cases ok
    next isRecord =>
      split at ok
      next => cases ok
      next =>
        split at ok
        next => cases ok
        next =>
          obtain ⟨⟨⟩, supported, -⟩ := attempt_bind_ok.mp ok
          unfold assertTypedDefinitionSupported at supported
          split at supported
          next isSupported => exact ⟨Bool.not_eq_false _ ▸ isRecord, isSupported⟩
          next => split at supported <;> cases supported

end Checks

section Prepared
variable {table : CompiledTable N} {pairs : List (Pair N)} {tenantId fresh : Text} {nonces : Text → Nonce} {input output : Cells N}

theorem prepare_ok (found : typedValueColumns table.toTable = .ok pairs)
    (ok : prepareTypedValueWrite platform tenantId fresh nonces table.toTable input current = .ok output) : ∃ opened sealed,
      pairs.foldlM (fun draft pair => openPair platform (secretScope table.toTable tenantId ((givenId table.toTable input current).getD fresh))
        current pair draft) ⟨identified table.toTable pairs fresh input current, current⟩ = .ok opened ∧
      assertTypedValuesValid platform pairs (authored table.toTable opened.output) opened.current = .ok () ∧
      pairs.foldlM (fun draft pair => sealPair platform (nonces pair.value.name) table.toTable
        (secretScope table.toTable tenantId ((givenId table.toTable input current).getD fresh)) current pair draft) opened = .ok sealed ∧
      output = sealed.output := by
  unfold prepareTypedValueWrite at ok
  rw [found] at ok
  change (if _ then Except.error _ else if _ then Except.error _ else _) = Except.ok output at ok
  split at ok
  next => cases ok
  next =>
    split at ok
    next => cases ok
    next =>
      obtain ⟨opened, opens, ok⟩ := attempt_bind_ok.mp ok
      obtain ⟨⟨⟩, valid, ok⟩ := attempt_bind_ok.mp ok
      obtain ⟨sealed, seals, ok⟩ := attempt_bind_ok.mp ok
      exact ⟨opened, sealed, opens, valid, seals, (Except.ok.inj ok).symm⟩

def view (pair : Pair N) (draft : Draft N) :=
  ((draft.output pair.value.name, (draft.current.getD fun _ => none) pair.value.name),
    (draft.output pair.definition.name, (draft.current.getD fun _ => none) pair.definition.name))

omit [JsNumber N] in
theorem view_eq (value : SameAt pair.value.name before after) (definition : SameAt pair.definition.name before after) :
    view pair after = view pair before := by
  unfold view
  rw [value.output, value.current, definition.output, definition.current]

omit [JsNumber N] in
theorem same_of_view (same : view pair after = view pair before) :
    SameAt pair.value.name before after ∧ SameAt pair.definition.name before after := by
  obtain ⟨value, definition⟩ := Prod.mk.inj same
  obtain ⟨valueOutput, valueCurrent⟩ := Prod.mk.inj value
  obtain ⟨definitionOutput, definitionCurrent⟩ := Prod.mk.inj definition
  exact ⟨⟨valueOutput, valueCurrent⟩, ⟨definitionOutput, definitionCurrent⟩⟩

omit [JsNumber N] in
theorem identified_of_ne {name : Text} (other : name ≠ table.primaryKey) :
    identified table.toTable pairs fresh input current name = input name := by
  unfold identified
  split
  next => exact Function.update_of_ne other _ _
  next => rfl

theorem prepare_settles (found : typedValueColumns table.toTable = .ok pairs) (member : pair ∈ pairs) (encrypted : pair.typed.encrypted = true)
    (ok : prepareTypedValueWrite platform tenantId fresh nonces table.toTable input current = .ok output) :
    output pair.definition.name = input pair.definition.name ∧
      ((input pair.value.name = none ∧ input pair.definition.name = none ∧ output pair.value.name = none) ∨
        ((definitionOf input current pair).isObject = true ∧
          definitionSupported platform (definitionOf input current pair) pair.definition.field pair.typed = true ∧
          Settles platform (secretScope table.toTable tenantId ((givenId table.toTable input current).getD fresh)) pair
            (cell (current.getD fun _ => none) pair.value.name) (definitionOf input current pair)
            (input pair.value.name) (output pair.value.name))) := by
  obtain ⟨opened, sealed, opens, valid, seals, isOutput⟩ := prepare_ok found ok
  have facts := (typedValueColumns_ok found).2
  have own := facts pair member
  have nodup := value_names_nodup found
  obtain ⟨valueKey, definitionKey, -⟩ := table.identity pair.value own.value pair.typed own.typed
  rw [← own.name] at definitionKey
  have startValue : identified table.toTable pairs fresh input current pair.value.name = input pair.value.name := identified_of_ne valueKey
  have startDefinition : identified table.toTable pairs fresh input current pair.definition.name = input pair.definition.name :=
    identified_of_ne definitionKey
  -- Only the pair's own steps reach its value, and none reaches its definition.
  obtain ⟨before, afterOpen, sameBefore, opening, sameOpened⟩ := foldlM_focus (view pair) member nodup
    (fun other among different _ _ taken => view_eq (openPair_frame different.symm taken)
      (openPair_frame (apart (facts other among) own).1.symm taken)) opens
  obtain ⟨middle, afterSeal, sameMiddle, sealing, sameSealed⟩ := foldlM_focus (view pair) member nodup
    (fun other among different _ _ taken => view_eq
      (sealPair_frame different.symm (apart own (facts other among)).2.1 taken)
      (sealPair_frame (apart (facts other among) own).1.symm (apart own (facts other among)).2.2 taken)) seals
  obtain ⟨-, ownCarrier, definitionCarrier⟩ := apart own own
  have otherColumn := (apart own own).1.symm
  have beforeValue := (same_of_view sameBefore).1
  have beforeDefinition := (same_of_view sameBefore).2
  have throughOpen : SameAt pair.definition.name before middle :=
    ((openPair_frame otherColumn opening).trans (same_of_view sameOpened).2).trans (same_of_view sameMiddle).2
  have openedDefinition : SameAt pair.definition.name ⟨identified table.toTable pairs fresh input current, current⟩ opened :=
    (beforeDefinition.trans (openPair_frame otherColumn opening)).trans (same_of_view sameOpened).2
  have inputValue : before.output pair.value.name = input pair.value.name := beforeValue.output.trans startValue
  have inputDefinition : before.output pair.definition.name = input pair.definition.name := beforeDefinition.output.trans startDefinition
  have isDefinition : definitionOf before.output current pair = definitionOf input current pair := by
    unfold definitionOf
    rw [inputDefinition]
  have carried : ∀ {draft : Draft N}, SameAt pair.value.name afterOpen draft →
      (draft.output pair.value.name).isNone = (input pair.value.name).isNone := by
    intro draft same
    rw [same.output, openPair_carried opening, inputValue]
  have middleValue := (same_of_view sameOpened).1.trans (same_of_view sameMiddle).1
  have middleDefinition : middle.output pair.definition.name = input pair.definition.name := throughOpen.output.trans inputDefinition
  rw [isOutput]
  constructor
  · rw [(same_of_view sameSealed).2.output, (sealPair_frame otherColumn definitionCarrier sealing).output, middleDefinition]
  · cases touched : (input pair.value.name).isNone && (input pair.definition.name).isNone with
    | true =>
      obtain ⟨noValue, noDefinition⟩ := Bool.and_eq_true_iff.mp touched
      left
      have untouched : afterSeal = middle := by
        unfold sealPair at sealing
        rw [carried middleValue, middleDefinition, touched] at sealing
        exact (Except.ok.inj sealing).symm
      have left := carried middleValue
      rw [noValue] at left
      rw [(same_of_view sameSealed).1.output, untouched]
      exact ⟨Option.isNone_iff_eq_none.mp noValue, Option.isNone_iff_eq_none.mp noDefinition, Option.isNone_iff_eq_none.mp left⟩
    | false =>
      right
      rw [← and_assoc]
      constructor
      · have supported := valid_supported (each_valid valid pair member)
        have openedOutput : opened.output pair.definition.name = input pair.definition.name := openedDefinition.output.trans startDefinition
        rw [authored_field own.value, authored_field own.definition, carried (same_of_view sameOpened).1, openedOutput] at supported
        have checked := supported touched
        unfold cell at checked
        rw [openedDefinition.current] at checked
        exact checked
      · rw [← isDefinition, ← inputValue, (same_of_view sameSealed).1.output]
        have stillTouched : ((middle.output pair.value.name).isNone && (middle.output pair.definition.name).isNone) = false := by
          rw [carried middleValue, middleDefinition]
          exact touched
        have isStored : definitionOf middle.output current pair = definitionOf before.output current pair := by
          unfold definitionOf
          rw [throughOpen.output]
        exact settles_pair encrypted ownCarrier beforeValue.current isStored opening middleValue stillTouched sealing

theorem prepare_id (found : typedValueColumns table.toTable = .ok pairs)
    (ok : prepareTypedValueWrite platform tenantId fresh nonces table.toTable input current = .ok output) :
    output table.primaryKey = identified table.toTable pairs fresh input current table.primaryKey := by
  obtain ⟨opened, sealed, opens, -, seals, isOutput⟩ := prepare_ok found ok
  have facts := (typedValueColumns_ok found).2
  have apart : ∀ pair ∈ pairs, table.primaryKey ≠ pair.value.name ∧ pair.typed.documentColumn ≠ some table.primaryKey := by
    intro pair member
    obtain ⟨value, -, carrier⟩ := table.identity pair.value (facts pair member).value pair.typed (facts pair member).typed
    exact ⟨value.symm, carrier⟩
  have keptOpening := foldlM_keeps (fun draft : Draft N => draft.output table.primaryKey)
    (fun pair member _ _ taken => (openPair_frame (apart pair member).1 taken).output) opens
  have keptSealing := foldlM_keeps (fun draft : Draft N => draft.output table.primaryKey)
    (fun pair member _ _ taken => (sealPair_frame (apart pair member).1 (apart pair member).2 taken).output) seals
  rw [isOutput]
  exact keptSealing.trans keptOpening

end Prepared

end OpenShapeForge.Operations.SecretValues
