import OpenShapeForge.Inbound.DeliveryIdentity
import OpenShapeForge.Library.Failing

/-! A normalised profile is read back from its columns as it was stored. -/

namespace OpenShapeForge.Inbound.ProfileColumns
open Js Library DeliveryIdentity

section Paths
variable {text path : Text} {c : CodeUnit}

theorem nameUnit_small (isName : isNameUnit c = true) : c ≤ 122 := by
  simp only [isNameUnit, isNameStart, isLetter, isDigit, Bool.or_eq_true, Bool.and_eq_true, decide_eq_true_eq, beq_iff_eq] at isName
  rcases isName with (((upper | lower) | underscore) | digit) | dash
  · exact UInt16.le_trans upper.2 (by decide)
  · exact lower.2
  · rw [underscore]
    decide
  · exact UInt16.le_trans digit.2 (by decide)
  · rw [dash]
    decide

theorem nameUnit_plain (isName : isNameUnit c = true) : isWhitespace c = false ∧ c ≠ unit ',' := by
  have every : ∀ n : Fin 123, isNameUnit (UInt16.ofNat n.val) = true →
      isWhitespace (UInt16.ofNat n.val) = false ∧ UInt16.ofNat n.val ≠ unit ',' := by decide
  have small : c.toNat < 123 := Nat.lt_succ_of_le (UInt16.le_iff_toNat_le.mp (nameUnit_small isName))
  have found := every ⟨c.toNat, small⟩
  rw [UInt16.ofNat_toNat] at found
  exact found isName

theorem segment_units {segment : Text} (isSegment : isPathSegment segment = true) : ∀ c ∈ segment, isNameUnit c = true := by
  cases segment with
  | nil => cases isSegment
  | cons first rest =>
    rw [isPathSegment, Bool.and_eq_true, Bool.and_eq_true] at isSegment
    intro c member
    cases member with
    | head => simp [isNameUnit, isSegment.1.1]
    | tail _ later => exact List.all_eq_true.mp isSegment.2 c later

theorem path_plain (isPath : isIdentityPath path = true) : ∀ c ∈ path, isWhitespace c = false ∧ c ≠ unit ',' := by
  rw [isIdentityPath, Bool.and_eq_true, List.all_eq_true] at isPath
  intro c member
  have placed : c = unit '.' ∨ ∃ segment ∈ segments path, c ∈ segment := Delimited.mem_splitOn member
  rcases placed with isDot | ⟨segment, isSegment, inside⟩
  · rw [isDot]
    decide
  · exact nameUnit_plain (segment_units (isPath.2 segment isSegment) c inside)

theorem dropWhile_plain (plain : ∀ c ∈ text, isWhitespace c = false) : text.dropWhile isWhitespace = text := by
  cases text with
  | nil => rfl
  | cons first rest => exact List.dropWhile_cons_of_neg (by simp [plain first List.mem_cons_self])

theorem trim_plain (plain : ∀ c ∈ text, isWhitespace c = false) : trim text = text := by
  unfold trim
  rw [dropWhile_plain plain, dropWhile_plain fun c member => plain c (List.mem_reverse.mp member), List.reverse_reverse]

theorem pathOf_isPath (isPath : pathOf text = some path) : isIdentityPath path = true := by
  unfold pathOf at isPath
  dsimp only at isPath
  split at isPath
  next => cases isPath
  next valid =>
    cases isPath
    exact Bool.not_eq_false _ ▸ fun refused => valid (.inl refused)

theorem pathOf_self (isPath : pathOf text = some path) : pathOf path = some path := by
  have same : trim path = path := trim_plain fun c member => (path_plain (pathOf_isPath isPath) c member).1
  unfold pathOf at isPath ⊢
  rw [same]
  dsimp only at isPath ⊢
  split at isPath
  next => cases isPath
  next valid =>
    cases isPath
    rw [if_neg valid]

theorem path_ne_nil (isPath : isIdentityPath path = true) : path ≠ [] := by
  rintro rfl
  exact absurd isPath (by decide)

end Paths

structure Normal (profile : InboundIdentityProfile) : Prop where
  paths : ∀ field ∈ profile.fields, pathOf field = some field
  distinct : profile.fields.Nodup
  eventTypePath : ∀ path, profile.eventTypePath = some path → pathOf path = some path
  ofDigest : profile.source = .bodyDigest → profile.fields = []
  ofFields : profile.source = .bodyField → profile.fields ≠ [] ∧ profile.fields.length ≤ maxIdentityFields

section Normalised
variable {N : Type} [JsNumber N] {profile : InboundIdentityProfile}

omit [JsNumber N] in
theorem distinctPaths_some : ∀ {entries : List (Value N)} {before fields : List Text}, distinctPaths entries before = some fields →
    (∀ field ∈ before, pathOf field = some field) → before.Nodup →
    (∀ field ∈ fields, pathOf field = some field) ∧ fields.Nodup ∧ fields.length = before.length + entries.length
  | [], before, fields, made, paths, distinct => by
    cases made
    exact ⟨paths, distinct, rfl⟩
  | entry :: rest, before, fields, made, paths, distinct => by
    rw [distinctPaths] at made
    obtain ⟨parsed, isPath, made⟩ := Option.bind_eq_some_iff.mp made
    split at made
    next => cases made
    next new =>
      have isSelf : pathOf parsed = some parsed := by
        cases entry with
        | text value => exact pathOf_self isPath
        | _ => cases isPath
      have all : ∀ field ∈ before ++ [parsed], pathOf field = some field := by
        intro field member
        rcases List.mem_append.mp member with early | last
        · exact paths field early
        · rw [List.mem_singleton.mp last]
          exact isSelf
      have once : (before ++ [parsed]).Nodup := by
        rw [List.nodup_append_comm]
        exact List.nodup_cons.mpr ⟨new, distinct⟩
      obtain ⟨found, nodup, length⟩ := distinctPaths_some made all once
      refine ⟨found, nodup, ?_⟩
      rw [length, List.length_append, List.length_cons, List.length_cons, List.length_nil]
      omega

omit [JsNumber N] in
theorem eventTypePathOf_some {value : Value N} {declared : Option Text} (made : eventTypePathOf value = some declared) :
    ∀ path, declared = some path → pathOf path = some path := by
  intro found isFound
  subst isFound
  cases value with
  | undefined => cases made
  | text text =>
    obtain ⟨parsed, isPath, same⟩ := Option.map_eq_some_iff.mp made
    cases same
    exact pathOf_self isPath
  | _ => cases made

theorem normal_digest {declared : Option Text} (events : ∀ path, declared = some path → pathOf path = some path) :
    Normal ⟨.bodyDigest, [], declared⟩ where
  paths _ member := by cases member
  distinct := List.nodup_nil
  eventTypePath := events
  ofDigest _ := rfl
  ofFields other := by cases other

theorem normal_of_normalize {input : Value N} (made : normalizeInboundIdentity input = some profile) : Normal profile := by
  unfold normalizeInboundIdentity at made
  split at made
  next =>
    cases made
    exact normal_digest fun _ declared => by cases declared
  next =>
    split at made
    next named _ =>
      obtain ⟨source, -, made⟩ := Option.bind_eq_some_iff.mp made
      obtain ⟨declared, isDeclared, made⟩ := Option.bind_eq_some_iff.mp made
      have events := eventTypePathOf_some isDeclared
      cases source with
      | bodyDigest =>
        dsimp only at made
        split at made
        next =>
          cases made
          exact normal_digest events
        next => cases made
      | bodyField =>
        dsimp only at made
        split at made
        next entries _ =>
          split at made
          next => cases made
          next sized =>
            obtain ⟨fields, isFields, same⟩ := Option.map_eq_some_iff.mp made
            cases same
            obtain ⟨paths, distinct, length⟩ := distinctPaths_some isFields (fun _ member => by cases member) List.nodup_nil
            rw [List.length_nil, Nat.zero_add] at length
            refine ⟨paths, distinct, events, (fun other => by cases other), fun _ => ⟨?_, ?_⟩⟩
            · rintro rfl
              exact sized (.inl length.symm)
            · rw [length]
              exact Nat.le_of_not_lt fun more => sized (.inr more)
        next => cases made
    next => cases made

end Normalised

section Stored
variable {N : Type} [JsNumber N] {profile : InboundIdentityProfile}

theorem parse_serialize (normal : Normal profile) (some' : profile.fields ≠ []) :
    parseInboundIdentityFields (serializeInboundIdentityFields profile.fields) = some profile.fields := by
  have plain : ∀ field ∈ profile.fields, unit ',' ∉ field := fun field member comma =>
    (path_plain (pathOf_isPath (normal.paths field member)) (unit ',') comma).2 rfl
  have split : (join (js ",") profile.fields).splitOn (unit ',') = profile.fields := List.splitOn_intercalate (unit ',') plain some'
  have joined : join (js ",") profile.fields ≠ [] := by
    intro empty
    rw [empty, List.splitOn_nil] at split
    have isPath := pathOf_isPath (normal.paths [] (split ▸ List.mem_cons_self))
    exact path_ne_nil isPath rfl
  have filled : profile.fields.length ≠ 0 := fun none' => some' (List.length_eq_zero_iff.mp none')
  rw [serializeInboundIdentityFields, if_neg filled, parseInboundIdentityFields, Option.getD_some, if_neg joined, split]
  have each : ∀ fields : List Text, (∀ field ∈ fields, pathOf field = some field) → fields.mapM pathOf = some fields := by
    intro fields
    induction fields with
    | nil => exact fun _ => rfl
    | cons field rest ih =>
      intro paths
      rw [List.mapM_cons, paths field List.mem_cons_self, ih fun other member => paths other (List.mem_cons_of_mem field member)]
      rfl
  exact each profile.fields normal.paths

omit [JsNumber N] in
theorem distinctPaths_self : ∀ {fields before : List Text}, (∀ field ∈ fields, pathOf field = some field) → (before ++ fields).Nodup →
    distinctPaths (fields.map (Value.text (N := N))) before = some (before ++ fields)
  | [], before, _, _ => by
    rw [List.append_nil]
    rfl
  | field :: rest, before, paths, distinct => by
    have isPath : path (Value.text (N := N) field) = some field := paths field List.mem_cons_self
    have new : field ∉ before := fun early =>
      List.disjoint_of_nodup_append distinct early List.mem_cons_self
    have again : (before ++ [field] ++ rest).Nodup := by
      rw [List.append_assoc]
      exact distinct
    rw [List.map_cons, distinctPaths, isPath, Option.bind_some, if_neg new,
      distinctPaths_self (fun other member => paths other (List.mem_cons_of_mem field member)) again, List.append_assoc]
    rfl

theorem declared_source (row : IdentityColumns) (fields : Option (List Text)) :
    (row.declared (N := N) fields).own? (js "source") = some (.text row.identitySource) := rfl

theorem declared_eventTypePath (row : IdentityColumns) (fields : Option (List Text))
    (events : ∀ path, row.identityEventTypePath = some path → pathOf path = some path) :
    eventTypePathOf (((row.declared (N := N) fields).own? (js "eventTypePath")).getD .undefined) = some row.identityEventTypePath := by
  have source : js "source" ≠ js "eventTypePath" := by decide
  have other : js "fields" ≠ js "eventTypePath" := by decide
  cases isDeclared : row.identityEventTypePath with
  | none =>
    cases fields with
    | none => simp [IdentityColumns.declared, isDeclared, Value.own?, source, eventTypePathOf]
    | some fields => simp [IdentityColumns.declared, isDeclared, Value.own?, source, other, eventTypePathOf]
  | some text =>
    have isPath := events text isDeclared
    have filled : (some text).filter (fun path => decide (path ≠ [])) = some text :=
      Option.filter_eq_some_iff.mpr ⟨rfl, decide_eq_true (path_ne_nil (pathOf_isPath isPath))⟩
    cases fields with
    | none =>
      simp only [IdentityColumns.declared, isDeclared, filled]
      simp [Value.own?, source, eventTypePathOf, path, isPath]
    | some fields =>
      simp only [IdentityColumns.declared, isDeclared, filled]
      simp [Value.own?, source, other, eventTypePathOf, path, isPath]

theorem declared_fields (row : IdentityColumns) (fields : Option (List Text)) :
    ((row.declared (N := N) fields).own? (js "fields")).getD .undefined =
      (fields.map fun fields => Value.array (fields.map .text)).getD .undefined := by
  have source : js "source" ≠ js "fields" := by decide
  have other : js "eventTypePath" ≠ js "fields" := by decide
  cases fields with
  | none =>
    unfold IdentityColumns.declared
    cases row.identityEventTypePath.filter fun path => path ≠ [] with
    | none => simp [Value.own?, source]
    | some text => simp [Value.own?, source, other]
  | some fields => simp [IdentityColumns.declared, Value.own?, source]

theorem stored_columns (normal : Normal profile) : storedInboundIdentity N profile.columns = some profile := by
  unfold storedInboundIdentity
  cases isSource : profile.source with
  | bodyDigest =>
    have notFields : ¬profile.columns.identitySource = js "body-field" := by
      have different : IdentitySource.bodyDigest.toText ≠ js "body-field" := by decide
      rw [InboundIdentityProfile.columns, isSource]
      exact different
    have named : IdentitySource.ofText profile.columns.identitySource = some .bodyDigest := by
      rw [InboundIdentityProfile.columns, isSource]
      rfl
    have none' := normal.ofDigest isSource
    rw [if_neg notFields, normalizeInboundIdentity, if_neg (by rintro ⟨⟩), declared_source]
    dsimp only
    rw [named, Option.bind_some, declared_eventTypePath profile.columns none normal.eventTypePath, Option.bind_some, declared_fields]
    obtain ⟨source, fields, eventTypePath⟩ := profile
    cases isSource
    cases none'
    rfl
  | bodyField =>
    have isFields : profile.columns.identitySource = js "body-field" := by
      rw [InboundIdentityProfile.columns, isSource]
      rfl
    obtain ⟨some', few⟩ := normal.ofFields isSource
    have parsed : parseInboundIdentityFields profile.columns.identityFields = some profile.fields := parse_serialize normal some'
    have named : IdentitySource.ofText profile.columns.identitySource = some .bodyField := by
      rw [isFields]
      rfl
    have sized : ¬((profile.fields.map (Value.text (N := N))).length = 0 ∨ maxIdentityFields < (profile.fields.map (Value.text (N := N))).length) := by
      rw [List.length_map]
      rintro (nothing | many)
      · exact some' (List.length_eq_zero_iff.mp nothing)
      · exact absurd many (Nat.not_lt.mpr few)
    rw [if_pos isFields, parsed, Option.bind_some, normalizeInboundIdentity, if_neg (by rintro ⟨⟩), declared_source]
    dsimp only
    rw [named, Option.bind_some, declared_eventTypePath profile.columns (some profile.fields) normal.eventTypePath, Option.bind_some, declared_fields]
    dsimp only [Option.map_some, Option.getD_some]
    have listed : distinctPaths (profile.fields.map (Value.text (N := N))) [] = some profile.fields :=
      distinctPaths_self normal.paths normal.distinct
    rw [if_neg sized, listed]
    obtain ⟨source, fields, eventTypePath⟩ := profile
    cases isSource
    rfl

end Stored

end OpenShapeForge.Inbound.ProfileColumns
