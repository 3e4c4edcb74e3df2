import OpenShapeForge.Documents.ContentValidation
import OpenShapeForge.Library.Failing
import OpenShapeForge.Library.FirstOf
import OpenShapeForge.Js.Whole
import Mathlib.Data.List.Pairwise
import Mathlib.Data.List.TakeWhile

/-! Which variant a channel serves (validateContentVariants and selectContentTemplateVariant
in packages/documents/src/content/validation.ts): the choice goes by preference, and it is of
the variants alone unless two locales that collate alike are both the least of a language. -/

namespace OpenShapeForge.Documents.ServedVariant
open Js ContentJson ContentTypes ContentValidation
open Library Library.Failing

variable {N : Type} [JsNumber N]

section Accepted

def Apart (first second : ContentTemplateVariant N) : Prop :=
  (first.channel, first.locale) ≠ (second.channel, second.locale) ∧
    ¬(first.default = some true ∧ second.default = some true ∧ first.channel = second.channel)

theorem assertContentName_trimmed {value field : Text} (ok : assertContentName value field = .ok ()) : trim value = value := by
  unfold assertContentName at ok
  split at ok
  · cases ok
  next named => exact not_not.mp fun untrimmed => named (.inr (.inl untrimmed))

theorem validateVariantsFrom_apart : ∀ {variants : List (ContentTemplateVariant N)} {seen : SeenVariants}, validateVariantsFrom variants seen = .ok () →
    variants.Pairwise Apart ∧ ∀ variant ∈ variants, trim variant.locale = variant.locale ∧ (variant.channel, variant.locale) ∉ seen.keys ∧
      (variant.default = some true → variant.channel ∉ seen.defaults)
  | [], _, _ => ⟨.nil, fun _ member => by cases member⟩
  | first :: rest, seen, ok => by
    simp only [validateVariantsFrom, attempt_bind_ok] at ok
    obtain ⟨_, -, _, -, _, named, _, fresh, _, single, _, -, _, -, ok⟩ := ok
    have distinct := contentErrorIf_ok fresh
    have alone := contentErrorIf_ok single
    obtain ⟨apart, unseen⟩ := validateVariantsFrom_apart ok
    refine ⟨List.pairwise_cons.mpr ⟨fun other member => ⟨fun same => ?_, fun both => ?_⟩, apart⟩, fun variant member => ?_⟩
    · apply (unseen other member).2.1
      rw [← same]
      exact List.mem_append_right _ (List.mem_singleton_self _)
    · obtain ⟨isDefault, isDefault', same⟩ := both
      apply (unseen other member).2.2 isDefault'
      rw [if_pos isDefault, ← same]
      exact List.mem_append_right _ (List.mem_singleton_self _)
    · rcases List.mem_cons.mp member with rfl | later
      · exact ⟨assertContentName_trimmed named, fun again => distinct (.inr again), fun isDefault again => alone ⟨isDefault, again⟩⟩
      · obtain ⟨trimmed, newKey, newDefault⟩ := unseen variant later
        refine ⟨trimmed, fun again => newKey (List.mem_append_left _ again), fun isDefault again => newDefault isDefault ?_⟩
        split
        · exact List.mem_append_left _ again
        · exact again

structure Accepted (variants : List (ContentTemplateVariant N)) : Prop where
  trimmed : ∀ variant ∈ variants, trim variant.locale = variant.locale
  locale : ∀ first ∈ variants, ∀ second ∈ variants, first.channel = second.channel → first.locale = second.locale → first = second
  default : ∀ first ∈ variants, ∀ second ∈ variants, first.channel = second.channel → first.default = some true →
    second.default = some true → first = second

theorem validateContentVariants_accepted {variants : List (ContentTemplateVariant N)} (ok : validateContentVariants variants = .ok ()) :
    Accepted variants := by
  unfold validateContentVariants at ok
  split at ok
  · cases ok
  next =>
    obtain ⟨pairwise, named⟩ := validateVariantsFrom_apart ok
    have symmetric : Std.Symm (Apart (N := N)) :=
      ⟨fun first second apart => ⟨fun same => apart.1 same.symm, fun both => apart.2 ⟨both.2.1, both.1, both.2.2.symm⟩⟩⟩
    have apart := fun {first second} (member : first ∈ variants) (member' : second ∈ variants) (other : first ≠ second) =>
      pairwise.forall member member' other
    refine ⟨fun variant member => (named variant member).1, fun first member second member' channel locale => ?_,
      fun first member second member' channel isDefault isDefault' => ?_⟩
    · by_contra other
      exact (apart member member' other).1 (by rw [channel, locale])
    · by_contra other
      exact (apart member member' other).2 ⟨isDefault, isDefault', channel⟩

end Accepted

section Choice
variable [Unicode]

structure LowerCasing : Prop where
  settled : ∀ text : Text, Unicode.toLowerCase (Unicode.toLowerCase text) = Unicode.toLowerCase text
  plain : ∀ text : Text, (∀ c ∈ text, c ≠ unit '-' ∧ c ≠ unit '_') → ∀ c ∈ Unicode.toLowerCase text, c ≠ unit '-' ∧ c ≠ unit '_'

variable (platform : Platform) (variants : List (ContentTemplateVariant N)) (channel locale : Text)

def SameLanguage (variant : ContentTemplateVariant N) : Prop :=
  variant ∈ variants ∧ variant.channel = channel ∧ contentLanguage variant.locale = contentLanguage locale

def Least (variant : ContentTemplateVariant N) : Prop :=
  SameLanguage variants channel locale variant ∧
    ∀ other, SameLanguage variants channel locale other → platform.localeCompare variant.locale other.locale ≠ .gt

/-- What a channel prefers, the first criterion before the others. -/
def preferences : List (ContentTemplateVariant N → Prop) := [
  fun variant => variant ∈ variants ∧ variant.channel = channel ∧ variant.locale = locale,
  fun variant => variant ∈ variants ∧ variant.channel = channel ∧ variant.locale = contentLanguage locale,
  fun variant => SameLanguage variants channel locale variant ∧ variant.default = some true,
  Least platform variants channel locale,
  fun variant => variant ∈ variants ∧ variant.channel = channel ∧ variant.default = some true]

def Preferred : Except Failure (ContentTemplateVariant N) → Prop
  | .ok variant => FirstOf (preferences platform variants channel locale) variant
  | .error refusal =>
    (∀ criterion ∈ preferences platform variants channel locale, ∀ variant, ¬criterion variant) ∧
      refusal = if ∀ variant ∈ variants, variant.channel ≠ channel then
        .content .unsupportedChannel (js "Template has no " ++ channel ++ js " variant.")
      else .content .unsupportedLocale (js "Template has no " ++ channel ++ js "/" ++ locale ++
        js " variant and no default " ++ channel ++ js " variant.")

/-- The variant is the preferred one, in whatever order the variants arrive. -/
def OrderFree : Prop :=
  (∀ arrived : List (ContentTemplateVariant N), arrived.Perm variants →
    selectContentTemplateVariant platform arrived channel locale = selectContentTemplateVariant platform variants channel locale) ∧
  Preferred platform variants channel locale (selectContentTemplateVariant platform variants channel locale)

/-- The least locale of the language is not asked for, or is one locale only. -/
def OneLeast : Prop :=
  (∃ variant ∈ variants, variant.channel = channel ∧ (variant.locale = locale ∨ variant.locale = contentLanguage locale)) ∨
  (∃ variant, SameLanguage variants channel locale variant ∧ variant.default = some true) ∨
  ∀ first second, Least platform variants channel locale first → Least platform variants channel locale second → first.locale = second.locale

end Choice

section Language
variable [Unicode]

/-- The language of a locale before its letters are lowered. -/
def subtag (locale : Text) : Text := ((trim locale).map fun c => if c = unit '_' then unit '-' else c).takeWhile (· ≠ unit '-')

theorem contentLanguage_eq (locale : Text) : contentLanguage locale = Unicode.toLowerCase (subtag locale) := rfl

omit [Unicode] in
theorem subtag_plain (locale : Text) : ∀ c ∈ subtag locale, c ≠ unit '-' ∧ c ≠ unit '_' := by
  intro c member
  have notDash : c ≠ unit '-' := by simpa using List.mem_takeWhile_imp member
  obtain ⟨written, -, isUnit⟩ := List.mem_map.mp (List.takeWhile_subset _ member)
  split at isUnit
  · exact absurd isUnit.symm notDash
  next notUnderscore => exact ⟨notDash, isUnit ▸ notUnderscore⟩

omit [Unicode] in
theorem subtag_self {name : Text} (trimmed : trim name = name) (plain : ∀ c ∈ name, c ≠ unit '-' ∧ c ≠ unit '_') : subtag name = name := by
  have kept : (name.map fun c => if c = unit '_' then unit '-' else c) = name := by
    refine (List.map_congr_left fun c member => ?_).trans (List.map_id _)
    rw [if_neg (plain c member).2, id]
  unfold subtag
  rw [trimmed, kept]
  exact List.takeWhile_eq_self_iff.mpr fun c member => decide_eq_true (plain c member).1

theorem contentLanguage_bare (lowerCasing : LowerCasing) {name locale : Text} (trimmed : trim name = name) (bare : name = contentLanguage locale) :
    contentLanguage name = contentLanguage locale := by
  have plain : ∀ c ∈ name, c ≠ unit '-' ∧ c ≠ unit '_' := by
    rw [bare, contentLanguage_eq]
    exact lowerCasing.plain _ (subtag_plain locale)
  calc contentLanguage name = Unicode.toLowerCase name := by rw [contentLanguage_eq, subtag_self trimmed plain]
    _ = Unicode.toLowerCase (Unicode.toLowerCase (subtag locale)) := by rw [bare, contentLanguage_eq]
    _ = contentLanguage locale := by rw [lowerCasing.settled, contentLanguage_eq]

end Language

section Served
variable [Unicode]

omit [JsNumber N] in
theorem mem_sameLanguage {variants : List (ContentTemplateVariant N)} {channel locale : Text} {variant : ContentTemplateVariant N} :
    variant ∈ (variants.filter (·.channel = channel)).filter (fun variant => contentLanguage variant.locale = contentLanguage locale) ↔
      SameLanguage variants channel locale variant := by
  simp only [SameLanguage, List.mem_filter, decide_eq_true_eq, and_assoc]

def sameLanguage (platform : Platform) (variants : List (ContentTemplateVariant N)) (channel locale : Text) : List (ContentTemplateVariant N) :=
  ((variants.filter (·.channel = channel)).filter fun variant => contentLanguage variant.locale = contentLanguage locale).insertionSort
    fun left right => platform.localeCompare left.locale right.locale ≠ .gt

/-- What the source looks for, by its preferences. -/
def chosen (platform : Platform) (variants : List (ContentTemplateVariant N)) (channel locale : Text) : Option (ContentTemplateVariant N) :=
  (variants.filter (·.channel = channel)).find? (·.locale = locale) <|>
    (sameLanguage platform variants channel locale).find? (·.locale = contentLanguage locale) <|>
    (sameLanguage platform variants channel locale).find? (·.default = some true) <|>
    (sameLanguage platform variants channel locale).head? <|>
    (variants.filter (·.channel = channel)).find? (·.default = some true)

variable {platform : Platform} {variants : List (ContentTemplateVariant N)} {channel locale : Text}

omit [JsNumber N] in
theorem mem_sorted {variant : ContentTemplateVariant N} :
    variant ∈ sameLanguage platform variants channel locale ↔ SameLanguage variants channel locale variant :=
  (List.perm_insertionSort _ _).mem_iff.trans mem_sameLanguage

omit [JsNumber N] in
theorem select_eq : selectContentTemplateVariant platform variants channel locale =
    if (variants.filter (·.channel = channel)).isEmpty then contentError .unsupportedChannel (js "Template has no " ++ channel ++ js " variant.")
    else match chosen platform variants channel locale with
      | some variant => .ok variant
      | none => contentError .unsupportedLocale (js "Template has no " ++ channel ++ js "/" ++ locale ++
          js " variant and no default " ++ channel ++ js " variant.") := rfl

omit [JsNumber N] [Unicode] in
theorem total_compare [Std.TransCmp platform.localeCompare] :
    Std.Total fun left right : ContentTemplateVariant N => platform.localeCompare left.locale right.locale ≠ .gt where
  total left right := by
    have swapped : platform.localeCompare right.locale left.locale = (platform.localeCompare left.locale right.locale).swap := Std.OrientedCmp.eq_swap
    rw [swapped]
    cases platform.localeCompare left.locale right.locale <;> simp

omit [JsNumber N] [Unicode] in
theorem trans_compare [Std.TransCmp platform.localeCompare] :
    IsTrans (ContentTemplateVariant N) fun left right => platform.localeCompare left.locale right.locale ≠ .gt where
  trans _ _ _ lower higher :=
    Ordering.ne_gt_iff_isLE.mpr (Std.TransCmp.isLE_trans (Ordering.ne_gt_iff_isLE.mp lower) (Ordering.ne_gt_iff_isLE.mp higher))

omit [JsNumber N] in
theorem chosen_picks [Std.TransCmp platform.localeCompare] (lowerCasing : LowerCasing) (accepted : Accepted variants) :
    Picks (preferences platform variants channel locale) (chosen platform variants channel locale) := by
  have total : Std.Total fun left right : ContentTemplateVariant N => platform.localeCompare left.locale right.locale ≠ .gt := total_compare
  have trans : IsTrans (ContentTemplateVariant N) fun left right => platform.localeCompare left.locale right.locale ≠ .gt := trans_compare
  refine .orElse (.congr (finds_find? _ _) fun variant => ?_) (.orElse (.congr (finds_find? _ _) fun variant => ?_)
    (.orElse (.congr (finds_find? _ _) fun variant => ?_) (.orElse (.congr (finds_least _ _) fun variant => ?_)
      (Finds.picks (.congr (finds_find? _ _) fun variant => ?_)))))
  · rw [List.mem_filter, decide_eq_true_eq, decide_eq_true_eq, and_assoc]
  · rw [mem_sorted, decide_eq_true_eq]
    constructor
    · exact fun ⟨same, bare⟩ => ⟨same.1, same.2.1, bare⟩
    · exact fun ⟨member, ofChannel, bare⟩ => ⟨⟨member, ofChannel, contentLanguage_bare lowerCasing (accepted.trimmed variant member) bare⟩, bare⟩
  · rw [mem_sorted, decide_eq_true_eq]
  · rw [Least, mem_sameLanguage]
    exact and_congr_right fun _ => forall_congr' fun other => imp_congr_left mem_sameLanguage
  · rw [List.mem_filter, decide_eq_true_eq, decide_eq_true_eq, and_assoc]

omit [JsNumber N] in
theorem preferences_perm {arrived : List (ContentTemplateVariant N)} (perm : arrived.Perm variants) :
    preferences platform arrived channel locale = preferences platform variants channel locale := by
  unfold preferences Least SameLanguage
  simp only [perm.mem_iff]

omit [JsNumber N] [Unicode] in
theorem accepted_perm {arrived : List (ContentTemplateVariant N)} (accepted : Accepted variants) (perm : arrived.Perm variants) : Accepted arrived where
  trimmed variant member := accepted.trimmed variant (perm.mem_iff.mp member)
  locale first member second member' := accepted.locale first (perm.mem_iff.mp member) second (perm.mem_iff.mp member')
  default first member second member' := accepted.default first (perm.mem_iff.mp member) second (perm.mem_iff.mp member')

omit [JsNumber N] in
theorem settled_preferences (accepted : Accepted variants) (oneLeast : OneLeast platform variants channel locale) :
    Settled (preferences platform variants channel locale) := by
  refine ⟨fun first second one two => ?_, fun noExact => ⟨fun first second one two => ?_, fun noBare => ⟨fun first second one two => ?_, fun noDefault =>
    ⟨fun first second one two => ?_, fun _ => ⟨fun first second one two => ?_, fun _ => trivial⟩⟩⟩⟩⟩
  · exact accepted.locale first one.1 second two.1 (one.2.1.trans two.2.1.symm) (one.2.2.trans two.2.2.symm)
  · exact accepted.locale first one.1 second two.1 (one.2.1.trans two.2.1.symm) (one.2.2.trans two.2.2.symm)
  · exact accepted.default first one.1.1 second two.1.1 (one.1.2.1.trans two.1.2.1.symm) one.2 two.2
  · have ofChannel : first.channel = second.channel := one.1.2.1.trans two.1.2.1.symm
    apply accepted.locale first one.1.1 second two.1.1 ofChannel
    rcases oneLeast with ⟨variant, member, same, exactly | bare⟩ | ⟨variant, isDefault⟩ | least
    · exact absurd ⟨member, same, exactly⟩ (noExact variant)
    · exact absurd ⟨member, same, bare⟩ (noBare variant)
    · exact absurd isDefault (noDefault variant)
    · exact least first second one two
  · exact accepted.default first one.1 second two.1 (one.2.1.trans two.2.1.symm) one.2.2 two.2.2

omit [JsNumber N] in
theorem select_perm [Std.TransCmp platform.localeCompare] (lowerCasing : LowerCasing) (accepted : Accepted variants)
    (oneLeast : OneLeast platform variants channel locale) {arrived : List (ContentTemplateVariant N)} (perm : arrived.Perm variants) :
    selectContentTemplateVariant platform arrived channel locale = selectContentTemplateVariant platform variants channel locale := by
  have picks : Picks (preferences platform arrived channel locale) (chosen platform arrived channel locale) :=
    chosen_picks lowerCasing (accepted_perm accepted perm)
  rw [preferences_perm perm] at picks
  have same := picks.unique (settled_preferences accepted oneLeast) (chosen_picks lowerCasing accepted)
  have empty : (arrived.filter (·.channel = channel)).isEmpty = (variants.filter (·.channel = channel)).isEmpty :=
    (perm.filter _).isEmpty_eq
  rw [select_eq, select_eq, same, empty]

omit [JsNumber N] in
theorem select_preferred [Std.TransCmp platform.localeCompare] (lowerCasing : LowerCasing) (accepted : Accepted variants) :
    Preferred platform variants channel locale (selectContentTemplateVariant platform variants channel locale) := by
  have picks : Picks (preferences platform variants channel locale) (chosen platform variants channel locale) := chosen_picks lowerCasing accepted
  rw [select_eq]
  split
  next empty =>
    have none : ∀ variant ∈ variants, variant.channel ≠ channel := by simpa using empty
    refine ⟨fun criterion member variant meets => ?_, (if_pos none).symm⟩
    have served : variant ∈ variants ∧ variant.channel = channel := by
      simp only [preferences, List.mem_cons, List.not_mem_nil, or_false] at member
      rcases member with rfl | rfl | rfl | rfl | rfl
      · exact ⟨meets.1, meets.2.1⟩
      · exact ⟨meets.1, meets.2.1⟩
      · exact ⟨meets.1.1, meets.1.2.1⟩
      · exact ⟨meets.1.1, meets.1.2.1⟩
      · exact ⟨meets.1, meets.2.1⟩
    exact none variant served.1 served.2
  next some =>
    have served : ¬∀ variant ∈ variants, variant.channel ≠ channel := by simpa using some
    cases found : chosen platform variants channel locale with
    | some variant => exact picks.sound variant found
    | none => exact ⟨picks.complete found, (if_neg served).symm⟩

omit [JsNumber N] in
theorem chosen_first [Std.TransCmp platform.localeCompare] {arrived : List (ContentTemplateVariant N)} {variant : ContentTemplateVariant N}
    (least : Least platform (variant :: arrived) channel locale variant)
    (noName : ∀ other ∈ variant :: arrived, other.channel = channel → other.locale ≠ locale ∧ other.locale ≠ contentLanguage locale)
    (noDefault : ∀ other, SameLanguage (variant :: arrived) channel locale other → other.default ≠ some true) :
    chosen platform (variant :: arrived) channel locale = some variant := by
  have noExact : ((variant :: arrived).filter (·.channel = channel)).find? (·.locale = locale) = none := by
    refine List.find?_eq_none.mpr fun other member => ?_
    obtain ⟨member, same⟩ := List.mem_filter.mp member
    simpa using (noName other member (of_decide_eq_true same)).1
  have noBare : (sameLanguage platform (variant :: arrived) channel locale).find? (·.locale = contentLanguage locale) = none := by
    refine List.find?_eq_none.mpr fun other member => ?_
    have inLanguage := mem_sorted.mp member
    simpa using (noName other inLanguage.1 inLanguage.2.1).2
  have noAuthored : (sameLanguage platform (variant :: arrived) channel locale).find? (·.default = some true) = none := by
    refine List.find?_eq_none.mpr fun other member => ?_
    simpa using noDefault other (mem_sorted.mp member)
  have isHead : (sameLanguage platform (variant :: arrived) channel locale).head? = some variant := by
    have ofChannel : (variant :: arrived).filter (·.channel = channel) = variant :: arrived.filter (·.channel = channel) :=
      List.filter_cons_of_pos (decide_eq_true least.1.2.1)
    unfold sameLanguage
    rw [ofChannel, List.filter_cons_of_pos (by simpa using least.1.2.2)]
    refine head?_insertionSort _ fun other member => least.2 other ?_
    obtain ⟨member, inLanguage⟩ := List.mem_filter.mp member
    obtain ⟨member, same⟩ := List.mem_filter.mp member
    exact ⟨List.mem_cons_of_mem _ member, of_decide_eq_true same, of_decide_eq_true inLanguage⟩
  unfold chosen
  rw [noExact, noBare, noAuthored, isHead]
  rfl

/-- One locale is the least of the language exactly where no order of arrival changes the choice. -/
theorem orderFree_iff [Std.TransCmp platform.localeCompare] (lowerCasing : LowerCasing) (ok : validateContentVariants variants = .ok ()) :
    OrderFree platform variants channel locale ↔ OneLeast platform variants channel locale := by
  have accepted := validateContentVariants_accepted ok
  constructor
  · intro free
    by_contra several
    obtain ⟨noName, several⟩ := not_or.mp several
    obtain ⟨noDefault, several⟩ := not_or.mp several
    push Not at noName noDefault several
    obtain ⟨first, second, one, two, apart⟩ := several
    -- Of the two, whichever arrives first is served.
    have servedFirst : ∀ {variant : ContentTemplateVariant N}, Least platform variants channel locale variant →
        selectContentTemplateVariant platform variants channel locale = .ok variant := by
      intro variant least
      obtain ⟨before, after, rfl⟩ := List.append_of_mem least.1.1
      have perm : (variant :: (before ++ after)).Perm (before ++ variant :: after) := List.perm_middle.symm
      have member : ∀ {other}, other ∈ variant :: (before ++ after) ↔ other ∈ before ++ variant :: after := perm.mem_iff
      have same : ∀ {other}, SameLanguage (variant :: (before ++ after)) channel locale other →
          SameLanguage (before ++ variant :: after) channel locale other :=
        fun inLanguage => ⟨member.mp inLanguage.1, inLanguage.2⟩
      have leastFirst : Least platform (variant :: (before ++ after)) channel locale variant :=
        ⟨⟨List.mem_cons_self .., least.1.2⟩, fun other inLanguage => least.2 other (same inLanguage)⟩
      have isChosen := chosen_first leastFirst (fun other inVariants => noName other (member.mp inVariants))
        fun other inLanguage => noDefault other (same inLanguage)
      rw [← free.1 _ perm, select_eq, isChosen, if_neg]
      simp [least.1.2.1]
    have both := (servedFirst one).symm.trans (servedFirst two)
    cases both
    exact apart rfl
  · intro oneLeast
    exact ⟨fun arrived perm => select_perm lowerCasing accepted oneLeast perm, select_preferred lowerCasing accepted⟩

end Served

section Spellings
attribute [local instance] asciiTables

theorem asciiLower_upper {c : CodeUnit} (upper : isUpperLetter c = true) : asciiLower c = c + 32 ∧ 97 ≤ (c + 32).toNat ∧ (c + 32).toNat ≤ 122 := by
  have range : 65 ≤ c.toNat ∧ c.toNat ≤ 90 := by simpa [isUpperLetter, UInt16.le_iff_toNat_le] using upper
  have lowered : (c + 32).toNat = (c.toNat + 32) % 65536 := rfl
  exact ⟨if_pos upper, by omega, by omega⟩

theorem asciiLower_plain {c : CodeUnit} (plain : c ≠ unit '-' ∧ c ≠ unit '_') : asciiLower c ≠ unit '-' ∧ asciiLower c ≠ unit '_' := by
  by_cases upper : isUpperLetter c = true
  · obtain ⟨same, above, below⟩ := asciiLower_upper upper
    rw [same]
    constructor
    · exact fun dash => absurd (dash ▸ above) (by decide)
    · exact fun underscore => absurd (underscore ▸ above) (by decide)
  · have same : asciiLower c = c := if_neg upper
    rwa [same]

theorem asciiLower_settled (c : CodeUnit) : asciiLower (asciiLower c) = asciiLower c := by
  by_cases upper : isUpperLetter c = true
  · obtain ⟨same, above, below⟩ := asciiLower_upper upper
    have notUpper : ¬isUpperLetter (c + 32) = true := by
      intro again
      have range : 65 ≤ (c + 32).toNat ∧ (c + 32).toNat ≤ 90 := by
        simpa only [isUpperLetter, UInt16.le_iff_toNat_le, Bool.and_eq_true, decide_eq_true_eq, UInt16.reduceToNat] using again
      omega
    rw [same]
    exact if_neg notUpper
  · have same : asciiLower c = c := if_neg upper
    rw [same, same]

theorem asciiLowerCasing : LowerCasing where
  settled text := by
    refine (List.map_map ..).trans (List.map_congr_left fun c _ => ?_)
    exact asciiLower_settled c
  plain text plain c member := by
    obtain ⟨written, inText, rfl⟩ := List.mem_map.mp member
    exact asciiLower_plain (plain written inText)

/-- An accent in one code unit or in one of its own, which are canonically equivalent. -/
def composed : Text → Text
  | [] => []
  | 0x65 :: 0x301 :: rest => 0xE9 :: composed rest
  | c :: rest => c :: composed rest

/-- A host that collates canonically equivalent texts alike. -/
def accentPlatform : Platform := { localeCompare := compareOn composed, sha256 := fun text => text }

instance accentPlatform_transCmp : Std.TransCmp accentPlatform.localeCompare := inferInstanceAs (Std.TransCmp (compareOn composed))

def inLocale (id : String) (locale : Text) : ContentTemplateVariant Whole := { id := js id, channel := js "web", locale, blocks := [] }

def twoSpellings : List (ContentTemplateVariant Whole) := [
  inLocale "one" (js "nl-caf" ++ [0xE9]),
  inLocale "two" (js "nl-caf" ++ [0x65, 0x301])]

theorem twoSpellings_in_order : validateContentVariants twoSpellings = .ok () ∧ ¬OrderFree accentPlatform twoSpellings (js "web") (js "nl-NL") := by
  refine ⟨by decide +kernel, fun free => ?_⟩
  have same := free.1 [inLocale "two" (js "nl-caf" ++ [0x65, 0x301]), inLocale "one" (js "nl-caf" ++ [0xE9])] (.swap ..)
  have served := congrArg (fun answer => answer.toOption.map (·.id)) same
  revert served
  decide +kernel

def twoRegions : List (ContentTemplateVariant Whole) := [inLocale "be" (js "nl-BE"), inLocale "sr" (js "nl-SR")]

theorem orderFree_regions : OrderFree accentPlatform twoRegions (js "web") (js "nl-NL") := by
  refine (orderFree_iff asciiLowerCasing (by decide +kernel)).mpr (.inr (.inr fun first second one two => ?_))
  have isFirst : ∀ {variant}, Least accentPlatform twoRegions (js "web") (js "nl-NL") variant → variant.locale = js "nl-BE" := by
    intro variant least
    have notAbove := least.2 (inLocale "be" (js "nl-BE")) ⟨List.mem_cons_self .., rfl, by decide +kernel⟩
    rcases List.mem_pair.mp least.1.1 with rfl | rfl
    · rfl
    · exact absurd rfl notAbove
  rw [isFirst one, isFirst two]

end Spellings

end OpenShapeForge.Documents.ServedVariant
