import OpenShapeForge.Js.Whole
import OpenShapeForge.Operations.SecretValues

/-! A confidential value over the creates and updates of its record: sealed where it is stored, redacted where it is shown. -/

namespace OpenShapeForge.Operations.SecretsConcealed
open Js Library Library.Failing TypedValues SecretValues

variable {N Schema Nonce : Type} [JsNumber N] {platform : Platform N Schema Nonce} {table : CompiledTable N} {pairs : List (Pair N)}
  {pair : Pair N}

section Records

structure Record (N : Type) where
  tenantId : Text
  row : Cells N
  last : Option Text

/-- A write as it comes to `prepareTypedValueWrite`, with the random values that it draws. -/
structure Write (N Nonce : Type) where
  tenantId : Text
  fresh : Text
  nonces : Text → Nonce
  input : Cells N

def inserted (table : Table N) (output : Cells N) : Cells N := fun name =>
  (output name).or ((table.columns.find? fun column => column.name = name).map fun column => column.default.getD .null)

def updated (row output : Cells N) : Cells N := fun name => (output name).or (row name)

/-- A plaintext that is supplied under a confidential definition; the sentinel keeps the one before it. -/
def supplied (definition : Value N) (written : Option (Value N)) (last : Option Text) : Option Text :=
  match secretDefinition definition, written with
  | true, some (.text text) => if text = SECRET_SET_SENTINEL then last else some text
  | _, _ => last

def showing (visible : Text → Bool) (row : Cells N) : Cells N := fun name => if visible name then row name else none

def scopeOf (table : Table N) (record : Record N) : Text :=
  secretScope table record.tenantId ((givenId table (fun _ => none) (some record.row)).getD [])

/-- An accepted create, or an accepted update of the record under its lock. -/
inductive Step (platform : Platform N Schema Nonce) (table : CompiledTable N) (pair : Pair N) :
    Option (Record N) → Write N Nonce → Option (Record N) → Prop
  | create {write output} : write.fresh ≠ [] →
      prepareTypedValueWrite platform write.tenantId write.fresh write.nonces table.toTable write.input none = .ok output →
      Step platform table pair none write (some ⟨write.tenantId, inserted table.toTable output,
        supplied (cell (inserted table.toTable output) pair.definition.name) (write.input pair.value.name) none⟩)
  | update {record write output} : write.tenantId = record.tenantId → write.input table.primaryKey = none →
      prepareTypedValueWrite platform write.tenantId write.fresh write.nonces table.toTable write.input (some record.row) = .ok output →
      Step platform table pair (some record) write (some ⟨record.tenantId, updated record.row output,
        supplied (cell (updated record.row output) pair.definition.name) (write.input pair.value.name) record.last⟩)

end Records

section Keeping
variable {scope : Text} {was definition existing fallback : Value N} {created : Bool} {written kept : Option (Value N)} {last : Option Text}

structure Kept (platform : Platform N Schema Nonce) (scope : Text) (pair : Pair N) (definition value : Value N) (last : Option Text) : Prop where
  sealed : secretDefinition definition = true → value.isNullish = true ∨ ∃ members plaintext, value = .object members ∧
    platform.decryptSecret scope pair.value.name members = .ok plaintext ∧ last = some plaintext
  opened : ∀ members plaintext, value = .object members → platform.decryptSecret scope pair.value.name members = .ok plaintext →
    last = some plaintext

/-- A definition that becomes confidential without a new value finds nothing in clear, and no envelope comes in as an ordinary value. -/
structure Reseals (platform : Platform N Schema Nonce) (scope : Text) (pair : Pair N) (was definition fallback : Value N) (created : Bool)
    (written : Option (Value N)) : Prop where
  uncarried : written = none → secretDefinition definition = true → secretDefinition was = false →
    fallback.isNullish = true ∨ (fallback.isObject = true ∧ created = false)
  ordinary : secretDefinition definition = false → written ≠ none ∨ created = true → ∀ members plaintext,
    written.getD fallback = .object members → platform.decryptSecret scope pair.value.name members ≠ .ok plaintext

theorem kept_nullish {value : Value N} (nullish : value.isNullish = true) : Kept platform scope pair definition value last := by
  constructor
  · exact fun _ => .inl nullish
  · intro members plaintext isObject
    rw [isObject] at nullish
    cases nullish

theorem kept_envelope {members : Members N} {plaintext : Text}
    (decrypts : platform.decryptSecret scope pair.value.name members = .ok plaintext) (isLast : last = some plaintext) :
    Kept platform scope pair definition (.object members) last := by
  constructor
  · exact fun _ => .inr ⟨members, plaintext, rfl, decrypts, isLast⟩
  · intro others other same opens
    rw [← Value.object.inj same, decrypts] at opens
    rw [isLast, Except.ok.inj opens]

theorem settles_keeps (inverse : ∀ {nonce scope field plaintext envelope}, platform.encryptSecret nonce scope field plaintext = .ok envelope →
      platform.decryptSecret scope field envelope = .ok plaintext)
    (settles : Settles platform scope pair existing definition written kept)
    (reseals : Reseals platform scope pair was definition fallback created written)
    (held : existing.isObject = true → fallback = existing ∧ created = false)
    (fresh : created = true → secretDefinition was = false)
    (before : created = false → fallback = existing ∧ Kept platform scope pair was fallback last) :
    Kept platform scope pair definition (kept.getD fallback) (supplied definition written last) := by
  cases settles with
  | document => exact kept_nullish rfl
  | ordinary ordinary =>
    have isLast : supplied definition written last = last := by
      unfold supplied
      rw [ordinary]
    rw [isLast]
    constructor
    · intro secret
      rw [ordinary] at secret
      cases secret
    · intro members plaintext isObject opens
      by_cases carried : written ≠ none ∨ created = true
      · exact absurd opens (reseals.ordinary ordinary carried members plaintext isObject)
      · obtain ⟨notWritten, notCreated⟩ := not_or.mp carried
        rw [not_not.mp notWritten] at isObject
        exact (before (Bool.eq_false_iff.mpr notCreated)).2.opened members plaintext isObject opens
  | absent secret opens =>
    have isLast : supplied definition none last = last := by
      unfold supplied
      rw [secret]
    rw [isLast]
    change Kept platform scope pair definition fallback last
    cases confidential : secretDefinition was with
    | true =>
      have updates : created = false := by
        cases isCreated : created with
        | true => rw [fresh isCreated] at confidential; cases confidential
        | false => rfl
      obtain ⟨-, kept⟩ := before updates
      exact ⟨fun _ => kept.sealed confidential, kept.opened⟩
    | false =>
      rcases reseals.uncarried rfl secret confidential with nullish | ⟨isEnvelope, updates⟩
      · exact kept_nullish nullish
      · obtain ⟨same, kept⟩ := before updates
        cases isFallback : fallback with
        | object members =>
          rw [isFallback] at same kept
          obtain ⟨plaintext, decrypts⟩ := opens members same.symm
          exact kept_envelope decrypts (kept.opened members plaintext rfl decrypts)
        | _ =>
          rw [isFallback] at isEnvelope
          cases isEnvelope
  | cleared nullish => exact kept_nullish nullish
  | @repeated members plaintext text secret isMembers decrypts repeats =>
    obtain ⟨same, updates⟩ := held (by rw [isMembers]; rfl)
    have isLast : last = some plaintext := (before updates).2.opened members plaintext (same.trans isMembers) decrypts
    have stays : supplied definition (some (.text text)) last = some plaintext := by
      unfold supplied
      rw [secret]
      dsimp only
      rcases repeats with sentinel | ⟨isPlaintext, other⟩
      · rw [if_pos sentinel, isLast]
      · rw [if_neg other, isPlaintext]
    rw [isMembers]
    exact kept_envelope decrypts stays
  | @sealed nonce plaintext envelope secret other encrypts =>
    have becomes : supplied definition (some (.text plaintext)) last = some plaintext := by
      unfold supplied
      rw [secret]
      exact if_neg other
    exact kept_envelope (inverse encrypts) becomes

theorem Reseals.keeps (reseals : Reseals platform scope pair was definition fallback true none) (fresh : secretDefinition was = false) :
    Kept platform scope pair definition fallback last := by
  cases secret : secretDefinition definition with
  | true =>
    rcases reseals.uncarried rfl secret fresh with nullish | ⟨-, never⟩
    · exact kept_nullish nullish
    · cases never
  | false =>
    constructor
    · intro confidential
      rw [secret] at confidential
      cases confidential
    · intro members plaintext isObject opens
      exact absurd opens (reseals.ordinary secret (.inr rfl) members plaintext isObject)

end Keeping

section Steps
variable {write : Write N Nonce} {record : Record N} {next : Option (Record N)} {output : Cells N}

structure Sound (platform : Platform N Schema Nonce) (table : CompiledTable N) (pair : Pair N) (record : Record N) : Prop where
  identified : ∃ id, id ≠ [] ∧ record.row table.primaryKey = some (.text id)
  supported : secretDefinition (cell record.row pair.definition.name) = true →
    definitionSupported platform (cell record.row pair.definition.name) pair.definition.field pair.typed = true
  kept : Kept platform (scopeOf table.toTable record) pair (cell record.row pair.definition.name) (cell record.row pair.value.name) record.last

def ResealsAt (platform : Platform N Schema Nonce) (table : Table N) (pair : Pair N) : Option (Record N) → Write N Nonce → Prop
  | none, write =>
    Reseals platform (secretScope table write.tenantId ((givenId table write.input none).getD write.fresh)) pair .undefined
      ((write.input pair.definition.name).getD (pair.definition.default.getD .null)) (pair.value.default.getD .null) true
      (write.input pair.value.name)
  | some record, write =>
    Reseals platform (scopeOf table record) pair (cell record.row pair.definition.name) (definitionOf write.input (some record.row) pair)
      (cell record.row pair.value.name) false (write.input pair.value.name)

omit [JsNumber N] in
theorem inserted_cell {column : Column N} (member : column ∈ table.columns) (output : Cells N) :
    cell (inserted table.toTable output) column.name = (output column.name).getD (column.default.getD .null) := by
  have found : table.columns.find? (fun other => other.name = column.name) = some column := by
    cases isFound : table.columns.find? (fun other => other.name = column.name) with
    | none =>
      have never := List.find?_eq_none.mp isFound column member
      exact absurd (decide_eq_true rfl) never
    | some other =>
      have sameName := List.find?_some isFound
      exact congrArg some (names_inj (List.mem_of_find?_eq_some isFound) member (of_decide_eq_true sameName))
  unfold cell inserted
  rw [found]
  cases output column.name <;> rfl

omit [JsNumber N] in
theorem updated_cell (row output : Cells N) (name : Text) : cell (updated row output) name = (output name).getD (cell row name) := by
  unfold cell updated
  cases output name <;> rfl

omit [JsNumber N] in
theorem givenId_row {row : Cells N} {id : Text} (isId : row table.primaryKey = some (.text id)) (filled : id ≠ []) (input : Cells N) :
    givenId table.toTable input (some row) = some id := by
  unfold givenId
  rw [Option.bind_some, isId, Option.getD_some]
  exact if_neg filled

omit [JsNumber N] in
theorem givenId_input {input : Cells N} {id : Text} (given : givenId table.toTable input none = some id) :
    id ≠ [] ∧ input table.primaryKey = some (.text id) := by
  unfold givenId at given
  rw [Option.bind_none, Option.getD_none] at given
  split at given
  next text isText =>
    split at given
    next => cases given
    next filled =>
      obtain rfl := Option.some.inj given
      refine ⟨filled, ?_⟩
      apply cell_of_isText
      rw [isText]
      exact decide_eq_true rfl
  next => cases given

variable (inverse : ∀ {nonce scope field plaintext envelope}, platform.encryptSecret nonce scope field plaintext = .ok envelope →
    platform.decryptSecret scope field envelope = .ok plaintext)
  (found : typedValueColumns table.toTable = .ok pairs) (member : pair ∈ pairs) (encrypted : pair.typed.encrypted = true)
include inverse found member encrypted

theorem create_sound (defaults : ∀ definition, pair.definition.default = some definition →
      definitionSupported platform definition pair.definition.field pair.typed = true)
    (reseals : ResealsAt platform table.toTable pair none write) (fresh : write.fresh ≠ [])
    (ok : prepareTypedValueWrite platform write.tenantId write.fresh write.nonces table.toTable write.input none = .ok output) :
    Sound platform table pair ⟨write.tenantId, inserted table.toTable output,
      supplied (cell (inserted table.toTable output) pair.definition.name) (write.input pair.value.name) none⟩ := by
  have own := (typedValueColumns_ok found).2 pair member
  have isKey := prepare_id found ok
  have someEncrypted : (pairs.any fun pair => pair.typed.encrypted) = true := List.any_eq_true.mpr ⟨pair, member, encrypted⟩
  have isId : (givenId table.toTable write.input none).getD write.fresh ≠ [] ∧
      output table.primaryKey = some (.text ((givenId table.toTable write.input none).getD write.fresh)) := by
    rw [isKey]
    unfold identified
    cases given : givenId table.toTable write.input none with
    | none =>
      rw [someEncrypted]
      exact ⟨fresh, Function.update_self _ _ _⟩
    | some id =>
      rw [Option.isNone_some, Bool.and_false]
      exact givenId_input given
  obtain ⟨filled, isRow⟩ := isId
  have rowKey : inserted table.toTable output table.primaryKey = some (.text ((givenId table.toTable write.input none).getD write.fresh)) := by
    unfold inserted
    rw [isRow]
    rfl
  have isScope : ∀ last, scopeOf table.toTable ⟨write.tenantId, inserted table.toTable output, last⟩ =
      secretScope table.toTable write.tenantId ((givenId table.toTable write.input none).getD write.fresh) := by
    intro last
    unfold scopeOf
    rw [givenId_row rowKey filled]
    rfl
  have isValue := inserted_cell own.value output
  have isDefinition := inserted_cell own.definition output
  obtain ⟨sameDefinition, settled⟩ := prepare_settles found member encrypted ok
  rw [sameDefinition] at isDefinition
  have condition : Reseals platform (secretScope table.toTable write.tenantId ((givenId table.toTable write.input none).getD write.fresh)) pair
      .undefined ((write.input pair.definition.name).getD (pair.definition.default.getD .null)) (pair.value.default.getD .null) true
      (write.input pair.value.name) := reseals
  rcases settled with ⟨noValue, noDefinition, notKept⟩ | ⟨isRecord, supported, settles⟩
  · refine ⟨⟨_, filled, rowKey⟩, ?_, ?_⟩
    · rw [isDefinition, noDefinition]
      intro secret
      cases isDefault : pair.definition.default with
      | none =>
        rw [isDefault] at secret
        cases secret
      | some definition => exact defaults definition isDefault
    · rw [noValue] at condition
      rw [isScope, isValue, isDefinition, notKept]
      exact condition.keeps rfl
  · have isWritten : (write.input pair.definition.name).getD (pair.definition.default.getD .null) = definitionOf write.input none pair := by
      unfold definitionOf at isRecord ⊢
      cases written : write.input pair.definition.name with
      | none =>
        rw [written] at isRecord
        cases isRecord
      | some definition => rfl
    rw [isWritten] at isDefinition condition
    refine ⟨⟨_, filled, rowKey⟩, ?_, ?_⟩
    · rw [isDefinition]
      exact fun _ => supported
    · rw [isScope, isValue, isDefinition]
      exact settles_keeps inverse settles condition (fun never => by cases never) (fun _ => rfl) (fun never => by cases never)

theorem update_sound (sound : Sound platform table pair record) (reseals : ResealsAt platform table.toTable pair (some record) write)
    (tenant : write.tenantId = record.tenantId) (keyless : write.input table.primaryKey = none)
    (ok : prepareTypedValueWrite platform write.tenantId write.fresh write.nonces table.toTable write.input (some record.row) = .ok output) :
    Sound platform table pair ⟨record.tenantId, updated record.row output,
      supplied (cell (updated record.row output) pair.definition.name) (write.input pair.value.name) record.last⟩ := by
  obtain ⟨id, filled, isId⟩ := sound.identified
  have given := givenId_row isId filled write.input
  have isKey := prepare_id found ok
  have rowKey : updated record.row output table.primaryKey = some (.text id) := by
    have notCarried : output table.primaryKey = none := by
      rw [isKey]
      unfold identified
      rw [given, Option.isNone_some, Bool.and_false]
      exact keyless
    unfold updated
    rw [notCarried]
    exact isId
  have isScope : ∀ last, scopeOf table.toTable ⟨record.tenantId, updated record.row output, last⟩ = scopeOf table.toTable record := by
    intro last
    unfold scopeOf
    rw [givenId_row rowKey filled, givenId_row isId filled]
  have writeScope : secretScope table.toTable write.tenantId ((givenId table.toTable write.input (some record.row)).getD write.fresh) =
      scopeOf table.toTable record := by
    unfold scopeOf
    rw [tenant, given, givenId_row isId filled]
    rfl
  obtain ⟨sameDefinition, settled⟩ := prepare_settles found member encrypted ok
  rw [writeScope] at settled
  have isValue := updated_cell record.row output pair.value.name
  have isDefinition : cell (updated record.row output) pair.definition.name = definitionOf write.input (some record.row) pair := by
    rw [updated_cell, sameDefinition]
    rfl
  rw [← isDefinition] at settled
  rcases settled with ⟨noValue, noDefinition, notKept⟩ | ⟨-, supported, settles⟩
  · have stays : cell (updated record.row output) pair.definition.name = cell record.row pair.definition.name := by
      rw [isDefinition]
      unfold definitionOf
      rw [noDefinition]
      rfl
    have isLast : supplied (cell (updated record.row output) pair.definition.name) (write.input pair.value.name) record.last = record.last := by
      rw [noValue]
      unfold supplied
      split
      next never => cases never
      next => rfl
    refine ⟨⟨id, filled, rowKey⟩, ?_, ?_⟩
    · rw [stays]
      exact sound.supported
    · rw [isScope, isLast, stays, isValue, notKept]
      exact sound.kept
  · refine ⟨⟨id, filled, rowKey⟩, fun _ => supported, ?_⟩
    rw [isScope, isValue]
    have condition : Reseals platform (scopeOf table.toTable record) pair (cell record.row pair.definition.name)
        (definitionOf write.input (some record.row) pair) (cell record.row pair.value.name) false (write.input pair.value.name) := reseals
    rw [← isDefinition] at condition
    exact settles_keeps inverse settles condition (fun _ => ⟨rfl, rfl⟩) (fun never => by cases never) (fun _ => ⟨rfl, sound.kept⟩)

end Steps

section Projections
variable {row before after shown : Cells N}

omit [JsNumber N] in
theorem redact_frame {name field : Text} (other : name ≠ field) : redactElicitedValues before field name = before name := by
  unfold redactElicitedValues
  cases before field with
  | some value => exact Function.update_of_ne other _ _
  | none => rfl

omit [JsNumber N] in
theorem redact_nullish {field : Text} (nullish : (cell before field).isNullish = true) :
    (cell (redactElicitedValues before field) field).isNullish = true := by
  unfold redactElicitedValues
  cases held : before field with
  | none => exact nullish
  | some value =>
    unfold cell at nullish ⊢
    rw [held] at nullish
    dsimp only
    rw [Function.update_self]
    cases value with
    | null => rfl
    | undefined => rfl
    | _ => cases nullish

theorem restored_frame {name : Text} (other : name ≠ pair.value.name) : restored row pair before name = before name := by
  unfold restored
  cases pair.typed.documentColumn with
  | none => rfl
  | some carrier =>
    cases isDocument (cell row pair.definition.name) with
    | true => exact Function.update_of_ne other _ _
    | false => rfl

theorem redactPair_frame {name : Text} (other : name ≠ pair.value.name) : redactPair row pair before name = before name := by
  unfold redactPair
  dsimp only
  split
  next =>
    split
    next => exact redact_frame other
    next => rw [Function.update_of_ne other, redact_frame other]
  next => rfl

theorem projectPair_frame {name : Text} (other : name ≠ pair.value.name) (ok : projectPair platform pairs row pair before = .ok after) :
    after name = before name := by
  obtain ⟨⟨⟩, -, isAfter⟩ := attempt_bind_ok.mp ok
  rw [← Except.ok.inj isAfter, redactPair_frame other, restored_frame other]

theorem secret_not_document {definition : Value N} {field : Text} {typed : TypedBy}
    (supported : definitionSupported platform definition field typed = true) (secret : secretDefinition definition = true)
    (carrier : typed.documentColumn.isSome = true) : isDocument definition = false := by
  cases isDoc : isDocument definition with
  | false => rfl
  | true =>
    unfold definitionSupported at supported
    unfold isDocument at isDoc
    rw [isDoc, carrier] at supported
    simp only [Bool.and_self, ↓reduceIte, Bool.and_eq_true, List.all_eq_true] at supported
    have unclassified := supported.1.2 (js "classification") (by decide)
    unfold secretDefinition at secret
    cases classification : member definition (js "classification") with
    | undefined =>
      rw [classification] at secret
      cases secret
    | _ =>
      rw [classification] at unclassified
      cases unclassified

theorem projectPair_conceals {visible : Text → Bool} {stored : Cells N} (own : PairOf table.toTable pair) (member : pair ∈ pairs)
    (encrypted : pair.typed.encrypted = true) (isRow : row = showing visible stored)
    (supported : definitionSupported platform (cell stored pair.definition.name) pair.definition.field pair.typed = true)
    (secret : secretDefinition (cell stored pair.definition.name) = true) (start : before pair.value.name = row pair.value.name)
    (ok : projectPair platform pairs row pair before = .ok after) :
    (cell after pair.value.name).isNullish = true ∨ cell after pair.value.name = .text SECRET_SET_SENTINEL := by
  obtain ⟨⟨⟩, checked, isAfter⟩ := attempt_bind_ok.mp ok
  obtain rfl := Except.ok.inj isAfter
  have startCell : cell before pair.value.name = cell row pair.value.name := by
    unfold cell
    rw [start]
  cases isVisible : visible pair.definition.name with
  | true =>
    have isDefinition : cell row pair.definition.name = cell stored pair.definition.name := by
      unfold cell
      rw [isRow]
      unfold showing
      rw [isVisible]
      rfl
    have notRestored : restored row pair before = before := by
      unfold restored
      rw [isDefinition]
      split
      next carrier isCarrier isDoc =>
        rw [secret_not_document supported secret (by rw [isCarrier]; rfl)] at isDoc
        cases isDoc
      next => rfl
    rw [notRestored]
    unfold redactPair
    rw [encrypted, isDefinition, secret]
    dsimp only
    have redacts : (true && true) = true := rfl
    rw [if_pos redacts]
    split
    next nullish =>
      rw [← startCell] at nullish
      exact .inl (redact_nullish nullish)
    next =>
      right
      unfold cell
      rw [Function.update_self]
      rfl
  | false =>
    have noDefinition : cell row pair.definition.name = .undefined := by
      unfold cell
      rw [isRow]
      unfold showing
      rw [isVisible]
      rfl
    have notRestored : restored row pair before = before := by
      unfold restored
      rw [noDefinition]
      split
      next never => cases never
      next => rfl
    cases held : row pair.value.name with
    | none =>
      left
      have isRedacted : redactPair row pair before = before := by
        unfold redactPair
        rw [noDefinition]
        exact if_neg (by rw [Bool.and_eq_true]; exact fun never => by cases never.2)
      rw [notRestored, isRedacted, startCell]
      unfold cell
      rw [held]
      rfl
    | some value =>
      -- Without its definition an ordinary value cannot be told from a secret, and the row is refused.
      unfold checkOrdinary at checked
      rw [encrypted, held, noDefinition] at checked
      have isRecord := (valid_supported (each_valid checked pair member) (by rw [Function.update_self]; rfl)).1
      have otherField : pair.definition.field ≠ pair.value.field := by
        intro same
        have sameColumn := List.inj_on_of_nodup_map table.fields own.definition own.value same
        exact (apart own own).1 (congrArg Column.name sameColumn.symm)
      rw [Function.update_of_ne otherField] at isRecord
      change (cell row pair.definition.name).isObject = true at isRecord
      rw [noDefinition] at isRecord
      cases isRecord

theorem projects_concealed (found : typedValueColumns table.toTable = .ok pairs) (member : pair ∈ pairs) (encrypted : pair.typed.encrypted = true)
    {stored : Cells N} (visible : Text → Bool)
    (supported : definitionSupported platform (cell stored pair.definition.name) pair.definition.field pair.typed = true)
    (secret : secretDefinition (cell stored pair.definition.name) = true)
    (ok : projectTypedValues platform table.toTable (showing visible stored) = .ok shown) :
    (cell shown pair.value.name).isNullish = true ∨ cell shown pair.value.name = .text SECRET_SET_SENTINEL := by
  unfold projectTypedValues at ok
  rw [found] at ok
  have facts := (typedValueColumns_ok found).2
  have projects : pairs.foldlM (fun output pair => projectPair platform pairs (showing visible stored) pair output)
      (showing visible stored) = .ok shown := ok
  obtain ⟨before, after, start, projecting, ends⟩ := foldlM_focus (fun output : Cells N => output pair.value.name) member
    (value_names_nodup found) (fun other _ different _ _ taken => projectPair_frame different.symm taken) projects
  have conceals := projectPair_conceals (facts pair member) member encrypted rfl supported secret start projecting
  have isShown : cell shown pair.value.name = cell after pair.value.name := by
    unfold cell
    rw [ends]
  rw [isShown]
  exact conceals

end Projections

section Runs
variable {record next : Record N} {write : Write N Nonce}

theorem step_repeats (found : typedValueColumns table.toTable = .ok pairs) (member : pair ∈ pairs) (encrypted : pair.typed.encrypted = true)
    (taken : Step platform table pair (some record) write (some next))
    (sentinel : write.input pair.value.name = some (.text SECRET_SET_SENTINEL))
    (secret : secretDefinition (cell next.row pair.definition.name) = true) : next.row pair.value.name = record.row pair.value.name := by
  cases taken with
  | @update _ _ output tenant keyless ok =>
    obtain ⟨sameDefinition, settled⟩ := prepare_settles found member encrypted ok
    have isDefinition : cell (updated record.row output) pair.definition.name = definitionOf write.input (some record.row) pair := by
      rw [updated_cell, sameDefinition]
      rfl
    rw [isDefinition] at secret
    rw [sentinel] at settled
    rcases settled with ⟨never, -⟩ | ⟨-, supported, settles⟩
    · cases never
    · change (output pair.value.name).or (record.row pair.value.name) = record.row pair.value.name
      generalize isOutput : output pair.value.name = kept at settles ⊢
      cases settles with
      | document isDoc carrier =>
        rw [secret_not_document supported secret carrier] at isDoc
        cases isDoc
      | ordinary ordinary =>
        rw [ordinary] at secret
        cases secret
      | cleared nullish => cases nullish
      | repeated _ isMembers _ _ =>
        unfold cell at isMembers
        change ((record.row pair.value.name).getD .undefined) = _ at isMembers
        cases held : record.row pair.value.name with
        | none =>
          rw [held] at isMembers
          cases isMembers
        | some value =>
          unfold cell
          change some ((record.row pair.value.name).getD .undefined) = _
          rw [held]
          rfl
      | sealed _ other _ => exact absurd rfl other

/-- A confidential value is null or sealed, is shown as null or as the sentinel, and stays as it is where the sentinel is repeated. -/
structure Concealed (platform : Platform N Schema Nonce) (table : CompiledTable N) (pair : Pair N) (record : Record N) : Prop where
  sealed : secretDefinition (cell record.row pair.definition.name) = true →
    (cell record.row pair.value.name).isNullish = true ∨ ∃ members plaintext, cell record.row pair.value.name = .object members ∧
      platform.decryptSecret (scopeOf table.toTable record) pair.value.name members = .ok plaintext ∧ record.last = some plaintext
  shown : secretDefinition (cell record.row pair.definition.name) = true → ∀ (visible : Text → Bool) (shown : Cells N),
    projectTypedValues platform table.toTable (showing visible record.row) = .ok shown →
      (cell shown pair.value.name).isNullish = true ∨ cell shown pair.value.name = .text SECRET_SET_SENTINEL
  repeats : ∀ (write : Write N Nonce) (next : Record N), Step platform table pair (some record) write (some next) →
    write.input pair.value.name = some (.text SECRET_SET_SENTINEL) → secretDefinition (cell next.row pair.definition.name) = true →
      next.row pair.value.name = record.row pair.value.name

/-- While no write makes a definition confidential over a value in clear, its value is concealed in every record that is reached. -/
theorem secrets_concealed (inverse : ∀ {nonce scope field plaintext envelope}, platform.encryptSecret nonce scope field plaintext = .ok envelope →
      platform.decryptSecret scope field envelope = .ok plaintext)
    (found : typedValueColumns table.toTable = .ok pairs) (member : pair ∈ pairs) (encrypted : pair.typed.encrypted = true)
    (defaults : ∀ definition, pair.definition.default = some definition →
      definitionSupported platform definition pair.definition.field pair.typed = true)
    {writes : List (Write N Nonce)} (run : Run (guarded (ResealsAt platform table.toTable pair) (Step platform table pair)) none writes (some record)) :
    Concealed platform table pair record := by
  have kept : ∀ {state label next}, (∀ record, state = some record → Sound platform table pair record) →
      guarded (ResealsAt platform table.toTable pair) (Step platform table pair) state label next →
      ∀ record, next = some record → Sound platform table pair record := by
    intro state write next sound taken record isRecord
    obtain ⟨reseals, taken⟩ := taken
    subst isRecord
    cases taken with
    | create fresh ok => exact create_sound inverse found member encrypted defaults reseals fresh ok
    | update tenant keyless ok => exact update_sound inverse found member encrypted (sound _ rfl) reseals tenant keyless ok
  have sound := run.invariant (fun state => ∀ record, state = some record → Sound platform table pair record) (fun _ never => by cases never)
    kept record rfl
  exact {
    sealed := sound.kept.sealed
    shown := fun secret visible _ ok => projects_concealed found member encrypted visible (sound.supported secret) secret ok
    repeats := fun _ _ taken => step_repeats found member encrypted taken }

end Runs

section Settings

def sealedText (scope field plaintext : Text) : Text := (scope ++ 0 :: (field ++ [0])) ++ plaintext

/-- Strings and a cipher that tells its scopes apart; other definitions are not looked at. -/
def settingPlatform : Platform Whole (Value Whole) Unit where
  osfTypes := []
  string _ := []
  object := some
  validate definition value :=
    match value with
    | some (.text _) | none => none
    | _ => if isText (member definition (js "osfType")) (js "string") then some [js "INVALID_TYPE"] else none
  encryptSecret _ scope field plaintext := .ok [(js "ciphertext", .text (sealedText scope field plaintext)), (js "keyId", .text (js "k")),
    (js "algorithm", .text (js "aes-256-gcm"))]
  decryptSecret scope field members :=
    match member (.object members) (js "ciphertext") with
    | .text ciphertext =>
      if (sealedText scope field []).isPrefixOf ciphertext then .ok (ciphertext.drop (sealedText scope field []).length)
      else .error (generatedCrudError (js "Secret could not be decrypted.") (js "CONNECTOR_SECRET_ERROR"))
    | _ => .error (generatedCrudError (js "Secret could not be decrypted.") (js "CONNECTOR_SECRET_ERROR"))
  applyDocumentContentDraft _ value := .ok value
  assertDocument _ _ := .ok ()

theorem settingPlatform_inverse {nonce : Unit} {scope field plaintext : Text} {envelope : Members Whole}
    (encrypts : settingPlatform.encryptSecret nonce scope field plaintext = .ok envelope) :
    settingPlatform.decryptSecret scope field envelope = .ok plaintext := by
  obtain rfl := Except.ok.inj encrypts
  have whole : sealedText scope field plaintext = sealedText scope field [] ++ plaintext := by simp [sealedText]
  change (if (sealedText scope field []).isPrefixOf (sealedText scope field plaintext) then
    Except.ok ((sealedText scope field plaintext).drop (sealedText scope field []).length) else _) = _
  rw [whole, if_pos (by simp), List.drop_left]

def settingBinding : TypedBy := ⟨js "definition", js "definition", none, true⟩

def idColumn : Column Whole := ⟨js "id", js "id", true, true, none, none⟩
def definitionColumn : Column Whole := ⟨js "definition", js "definition", false, true, none, none⟩
def valueColumn : Column Whole := ⟨js "value", js "value", false, false, none, some settingBinding⟩

theorem only_value {column : Column Whole} (member : column ∈ [idColumn, definitionColumn, valueColumn]) {typed : TypedBy}
    (isTyped : column.typedBy = some typed) : column = valueColumn ∧ typed = settingBinding := by
  simp only [List.mem_cons, List.not_mem_nil, or_false] at member
  rcases member with same | same | same
  · rw [same] at isTyped
    cases isTyped
  · rw [same] at isTyped
    cases isTyped
  · rw [same] at isTyped
    exact ⟨same, (Option.some.inj isTyped).symm⟩

def settings : CompiledTable Whole where
  schema := js "erp"
  table := js "settings"
  columns := [idColumn, definitionColumn, valueColumn]
  primaryKey := js "id"
  tenantScoped := true
  names := by decide
  fields := by decide
  plain := by
    intro value member typed isTyped column among named
    obtain ⟨-, isBinding⟩ := only_value member isTyped
    cases isColumn : column.typedBy with
    | none => rfl
    | some other =>
      rw [(only_value among isColumn).1, isBinding] at named
      exact absurd named (by decide)
  carriers := by
    intro value member typed isTyped other _ otherTyped _
    rw [(only_value member isTyped).2]
    intro same
    cases same
  identity := by
    intro value member typed isTyped
    obtain ⟨isValue, isBinding⟩ := only_value member isTyped
    rw [isValue, isBinding]
    decide

def settingPair : Pair Whole := ⟨valueColumn, definitionColumn, settingBinding⟩

theorem settings_pairs : typedValueColumns settings.toTable = .ok [settingPair] := rfl

def ordinaryText : Value Whole := .object [(js "key", .text (js "value")), (js "osfType", .text (js "string"))]
def secretText : Value Whole := .object [(js "key", .text (js "value")), (js "osfType", .text (js "string")),
  (js "classification", .object [(js "sensitivity", .text (js "confidential"))])]

def cells (entries : List (Text × Value Whole)) : Cells Whole := fun name => (entries.find? fun entry => entry.1 = name).map Prod.snd

def settingWrite (entries : List (Text × Value Whole)) : Write Whole Unit := ⟨js "t", js "r", fun _ => (), cells entries⟩

def settled (write : Write Whole Unit) (current : Option (Cells Whole)) : Cells Whole :=
  match prepareTypedValueWrite settingPlatform write.tenantId write.fresh write.nonces settings.toTable write.input current with
  | .ok output => output
  | .error _ => fun _ => none

theorem settled_ok {write : Write Whole Unit} {current : Option (Cells Whole)}
    (accepted : (prepareTypedValueWrite settingPlatform write.tenantId write.fresh write.nonces settings.toTable write.input current).isOk = true) :
    prepareTypedValueWrite settingPlatform write.tenantId write.fresh write.nonces settings.toTable write.input current =
      .ok (settled write current) := by
  obtain ⟨output, ok⟩ := exists_of_isOk accepted
  unfold settled
  rw [ok]

def createSecret : Write Whole Unit := settingWrite [(js "definition", secretText), (js "value", .text (js "hidden"))]

def createdSecret : Record Whole where
  tenantId := js "t"
  row := inserted settings.toTable (settled createSecret none)
  last := some (js "hidden")

theorem secrets_concealed_setting : Concealed settingPlatform settings settingPair createdSecret := by
  have taken : Step settingPlatform settings settingPair none createSecret (some createdSecret) :=
    .create (by decide) (settled_ok (by decide))
  have reseals : ResealsAt settingPlatform settings.toTable settingPair none createSecret := by
    constructor
    · intro never
      cases never
    · intro never
      cases never
  exact secrets_concealed settingPlatform_inverse settings_pairs List.mem_cons_self rfl (fun _ never => by cases never)
    (.step .start ⟨reseals, taken⟩)

def createPlain : Write Whole Unit := settingWrite [(js "definition", ordinaryText), (js "value", .text (js "plain"))]

def plainRow : Cells Whole := inserted settings.toTable (settled createPlain none)

def reclassify : Write Whole Unit := settingWrite [(js "definition", secretText)]

/-- The value that was stored as an ordinary one is left in clear under a confidential definition. -/
theorem reclassified_in_clear : ¬∀ writes record, Run (Step settingPlatform settings settingPair) none writes (some record) →
    Concealed settingPlatform settings settingPair record := by
  intro conceals
  have creates : Step settingPlatform settings settingPair none createPlain (some ⟨js "t", plainRow, none⟩) :=
    .create (by decide) (settled_ok (by decide))
  have updates : Step settingPlatform settings settingPair (some ⟨js "t", plainRow, none⟩) reclassify
      (some ⟨js "t", updated plainRow (settled reclassify (some plainRow)), none⟩) :=
    .update rfl rfl (settled_ok (by decide))
  have concealed := (conceals _ _ (.step (.step .start creates) updates)).sealed (by decide)
  have inClear : cell (updated plainRow (settled reclassify (some plainRow))) (js "value") = .text (js "plain") := rfl
  rcases concealed with nullish | ⟨members, plaintext, isObject, -⟩
  · cases inClear ▸ nullish
  · cases inClear ▸ isObject

end Settings

end OpenShapeForge.Operations.SecretsConcealed
