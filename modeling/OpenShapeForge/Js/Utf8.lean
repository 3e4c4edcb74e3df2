import OpenShapeForge.Js.Text

/-! A text as it is encoded in UTF-8: a surrogate that stands alone is written as U+FFFD. -/

namespace OpenShapeForge.Js

def isHighSurrogate (c : CodeUnit) : Bool := 0xD800 ≤ c && c ≤ 0xDBFF

def isLowSurrogate (c : CodeUnit) : Bool := 0xDC00 ≤ c && c ≤ 0xDFFF

/-- What stands alone for itself. -/
def wellFormedUnit (c : CodeUnit) : CodeUnit := if isHighSurrogate c || isLowSurrogate c then 0xFFFD else c

def toWellFormed : Text → Text
  | [] => []
  | [c] => [wellFormedUnit c]
  | c :: next :: rest =>
    if isHighSurrogate c && isLowSurrogate next then c :: next :: toWellFormed rest
    else wellFormedUnit c :: toWellFormed (next :: rest)

def replaced (text : Text) : List (Option CodeUnit) :=
  List.zipWith (fun c written => if c = written then none else some c) text (toWellFormed text)

theorem length_toWellFormed (text : Text) : (toWellFormed text).length = text.length := by
  fun_induction toWellFormed text with
  | case1 => rfl
  | case2 => rfl
  | case3 c next rest _ ih => simpa using ih
  | case4 c next rest _ ih => simpa using ih

theorem eq_of_toWellFormed {first second : Text} (same : toWellFormed first = toWellFormed second) (alike : replaced first = replaced second) :
    first = second := by
  have read : ∀ text : Text, ∀ written : Text, written.length = text.length →
      text = List.zipWith (fun mark w => mark.getD w) (List.zipWith (fun c w => if c = w then none else some c) text written) written := by
    intro text
    induction text with
    | nil => intro written _; rfl
    | cons c rest ih =>
      intro written length
      cases written with
      | nil => cases length
      | cons w tail =>
        have tails := ih tail (Nat.succ.inj length)
        by_cases kept : c = w
        · simp [kept, ← tails]
        · simp [kept, ← tails]
  rw [read first (toWellFormed first) (length_toWellFormed first), read second (toWellFormed second) (length_toWellFormed second)]
  change List.zipWith _ (replaced first) _ = List.zipWith _ (replaced second) _
  rw [same, alike]

section Separators
variable {separator : CodeUnit} (plain : (isHighSurrogate separator || isLowSurrogate separator) = false)
include plain

theorem wellFormedUnit_plain : wellFormedUnit separator = separator := by
  simp [wellFormedUnit, plain]

theorem toWellFormed_cons (text : Text) : toWellFormed (separator :: text) = separator :: toWellFormed text := by
  have isHigh : isHighSurrogate separator = false := (Bool.or_eq_false_iff.mp plain).1
  cases text with
  | nil => simp [toWellFormed, wellFormedUnit_plain plain]
  | cons next rest => simp [toWellFormed, isHigh, wellFormedUnit_plain plain]

theorem toWellFormed_append (first second : Text) :
    toWellFormed (first ++ separator :: second) = toWellFormed first ++ separator :: toWellFormed second := by
  have isLow : isLowSurrogate separator = false := (Bool.or_eq_false_iff.mp plain).2
  fun_induction toWellFormed first with
  | case1 => exact toWellFormed_cons plain second
  | case2 c =>
    change toWellFormed (c :: separator :: second) = _
    simp [toWellFormed, isLow, toWellFormed_cons plain]
  | case3 c next rest paired ih =>
    change toWellFormed (c :: next :: (rest ++ separator :: second)) = _
    simp [toWellFormed, paired, ih]
  | case4 c next rest alone ih =>
    change toWellFormed (c :: next :: (rest ++ separator :: second)) = _
    rw [toWellFormed, if_neg alone]
    exact congrArg (wellFormedUnit c :: ·) ih

theorem count_toWellFormed (different : separator ≠ 0xFFFD) (text : Text) : (toWellFormed text).count separator = text.count separator := by
  have unit : ∀ c : CodeUnit, wellFormedUnit c = separator ↔ c = separator := by
    intro c
    unfold wellFormedUnit
    split
    next surrogate =>
      constructor
      · exact fun same => absurd same.symm different
      · intro same
        rw [same, plain] at surrogate
        cases surrogate
    next => exact Iff.rfl
  have counts : ∀ c : CodeUnit, ∀ text : Text, (wellFormedUnit c :: text).count separator = (c :: text).count separator := by
    intro c text
    rw [List.count_cons, List.count_cons]
    by_cases same : c = separator
    · simp [same, (unit separator).mpr rfl]
    · simp [same, (unit c).not.mpr same]
  fun_induction toWellFormed text with
  | case1 => rfl
  | case2 c => exact counts c []
  | case3 c next rest _ ih =>
    rw [List.count_cons, List.count_cons, ih, ← List.count_cons, ← List.count_cons]
  | case4 c next rest _ ih => rw [counts, List.count_cons, ih, ← List.count_cons]

end Separators

section Octets

def character (c : CodeUnit) : Char := Char.ofNat (wellFormedUnit c).toNat

def pairCharacter (high low : CodeUnit) : Char := Char.ofNat (0x10000 + (high.toNat - 0xD800) * 0x400 + (low.toNat - 0xDC00))

def characters : Text → List Char
  | [] => []
  | [c] => [character c]
  | c :: next :: rest =>
    if isHighSurrogate c && isLowSurrogate next then pairCharacter c next :: characters rest
    else character c :: characters (next :: rest)

def utf8 (text : Text) : List UInt8 := (characters text).flatMap String.utf8EncodeChar

def unitsOf (n : Nat) : Text :=
  if n < 0x10000 then [UInt16.ofNat n] else [UInt16.ofNat (0xD800 + (n - 0x10000) / 0x400), UInt16.ofNat (0xDC00 + (n - 0x10000) % 0x400)]

theorem toNat_ofNat_char {n : Nat} (valid : n.isValidChar) : (Char.ofNat n).toNat = n := by
  rw [Char.ofNat, dif_pos valid]
  rfl

theorem unitsOf_character (c : CodeUnit) : unitsOf (character c).toNat = [wellFormedUnit c] := by
  have bound : (wellFormedUnit c).toNat < 0x10000 := (wellFormedUnit c).toNat_lt
  have valid : (wellFormedUnit c).toNat.isValidChar := by
    unfold wellFormedUnit
    split
    next => decide
    next plain =>
      have := c.toNat_lt
      simp only [isHighSurrogate, isLowSurrogate, Bool.or_eq_true, Bool.and_eq_true, decide_eq_true_eq, not_or, not_and, UInt16.le_iff_toNat_le] at plain
      unfold Nat.isValidChar
      have h := plain.1
      have l := plain.2
      simp at h l
      omega
  rw [character, toNat_ofNat_char valid, unitsOf, if_pos bound, UInt16.ofNat_toNat]

theorem unitsOf_pair {high low : CodeUnit} (isHigh : isHighSurrogate high = true) (isLow : isLowSurrogate low = true) :
    unitsOf (pairCharacter high low).toNat = [high, low] := by
  simp only [isHighSurrogate, isLowSurrogate, Bool.and_eq_true, decide_eq_true_eq, UInt16.le_iff_toNat_le] at isHigh isLow
  simp at isHigh isLow
  have valid : (0x10000 + (high.toNat - 0xD800) * 0x400 + (low.toNat - 0xDC00)).isValidChar := by
    unfold Nat.isValidChar
    omega
  have isHighUnit : 0xD800 + (0x10000 + (high.toNat - 0xD800) * 0x400 + (low.toNat - 0xDC00) - 0x10000) / 0x400 = high.toNat := by omega
  have isLowUnit : 0xDC00 + (0x10000 + (high.toNat - 0xD800) * 0x400 + (low.toNat - 0xDC00) - 0x10000) % 0x400 = low.toNat := by omega
  rw [pairCharacter, toNat_ofNat_char valid, unitsOf, if_neg (by omega), isHighUnit, isLowUnit, UInt16.ofNat_toNat, UInt16.ofNat_toNat]

theorem units_characters (text : Text) : (characters text).flatMap (fun c => unitsOf c.toNat) = toWellFormed text := by
  fun_induction characters text with
  | case1 => rfl
  | case2 c => simp [toWellFormed, unitsOf_character]
  | case3 c next rest paired ih =>
    obtain ⟨isHigh, isLow⟩ := Bool.and_eq_true_iff.mp paired
    rw [toWellFormed, if_pos paired, List.flatMap_cons, ih, unitsOf_pair isHigh isLow]
    rfl
  | case4 c next rest alone ih =>
    rw [toWellFormed, if_neg alone, List.flatMap_cons, ih, unitsOf_character]
    rfl

theorem toWellFormed_of_utf8 {first second : Text} (same : utf8 first = utf8 second) : toWellFormed first = toWellFormed second := by
  have encoded : (characters first).utf8Encode = (characters second).utf8Encode := congrArg List.toByteArray same
  have decoded : some (characters first).toArray = some (characters second).toArray := by
    rw [← List.utf8Decode?_utf8Encode, ← List.utf8Decode?_utf8Encode, encoded]
  rw [← units_characters, ← units_characters, List.toArray_inj (Option.some.inj decoded)]

/-- A character of several octets that is being read: its value so far, the octets that are
missing, and the bounds of the next one. -/
structure Unfinished where
  value : Nat
  missing : Nat
  least : UInt8
  greatest : UInt8

def firstOctet (octet : UInt8) : Text × Option Unfinished :=
  if octet < 0x80 then ([UInt16.ofNat octet.toNat], none)
  else if 0xC2 ≤ octet ∧ octet ≤ 0xDF then ([], some ⟨octet.toNat % 32, 1, 0x80, 0xBF⟩)
  else if 0xE0 ≤ octet ∧ octet ≤ 0xEF then
    ([], some ⟨octet.toNat % 16, 2, if octet = 0xE0 then 0xA0 else 0x80, if octet = 0xED then 0x9F else 0xBF⟩)
  else if 0xF0 ≤ octet ∧ octet ≤ 0xF4 then
    ([], some ⟨octet.toNat % 8, 3, if octet = 0xF0 then 0x90 else 0x80, if octet = 0xF4 then 0x8F else 0xBF⟩)
  else ([0xFFFD], none)

/-- One octet more. What breaks off is written as U+FFFD, and the octet begins anew. -/
def nextOctet (unfinished : Option Unfinished) (octet : UInt8) : Text × Option Unfinished :=
  match unfinished with
  | none => firstOctet octet
  | some character =>
    if character.least ≤ octet ∧ octet ≤ character.greatest then
      let value := character.value * 64 + octet.toNat % 64
      if character.missing = 1 then (unitsOf value, none) else ([], some ⟨value, character.missing - 1, 0x80, 0xBF⟩)
    else
      let (written, begun) := firstOctet octet
      (0xFFFD :: written, begun)

def decodeFrom : Option Unfinished → List UInt8 → Text
  | none, [] => []
  | some _, [] => [0xFFFD]
  | unfinished, octet :: rest => (nextOctet unfinished octet).1 ++ decodeFrom (nextOctet unfinished octet).2 rest

/-- `toString("utf8")` of a buffer. -/
def decodeUtf8 (octets : List UInt8) : Text := decodeFrom none octets

/-- `toString("hex")` of a buffer. -/
def hex (octets : List UInt8) : Text := octets.flatMap fun octet => [hexDigit (octet.toNat / 16), hexDigit (octet.toNat % 16)]

theorem hexDigit_inj {first second : Nat} (one : first < 16) (two : second < 16) (same : hexDigit first = hexDigit second) : first = second := by
  have every : ∀ first second : Fin 16, hexDigit first.val = hexDigit second.val → first = second := by decide
  exact congrArg Fin.val (every ⟨first, one⟩ ⟨second, two⟩ same)

theorem hex_inj : ∀ {first second : List UInt8}, hex first = hex second → first = second
  | [], [], _ => rfl
  | [], octet :: rest, same => by cases same
  | octet :: rest, [], same => by cases same
  | octet :: first, other :: second, same => by
    have bound : octet.toNat < 256 := octet.toNat_lt
    have bound' : other.toNat < 256 := other.toNat_lt
    obtain ⟨high, same⟩ := List.cons.inj same
    obtain ⟨low, same⟩ := List.cons.inj same
    have sameHigh := hexDigit_inj (by omega) (by omega) high
    have sameLow := hexDigit_inj (by omega) (by omega) low
    have sameOctet : octet = other := UInt8.toNat_inj.mp (by omega)
    rw [sameOctet, hex_inj same]

end Octets

section WellFormed

def WellFormed (text : Text) : Prop := toWellFormed text = text

theorem wellFormedUnit_eq {c : CodeUnit} (kept : wellFormedUnit c = c) : (isHighSurrogate c || isLowSurrogate c) = false := by
  unfold wellFormedUnit at kept
  split at kept
  next =>
    rw [← kept]
    rfl
  next plain => exact Bool.not_eq_true _ ▸ plain

theorem WellFormed.append {first second : Text} (one : WellFormed first) (two : WellFormed second) : WellFormed (first ++ second) := by
  unfold WellFormed at one ⊢
  fun_induction toWellFormed first with
  | case1 => exact two
  | case2 c =>
    have kept : wellFormedUnit c = c := (List.cons.inj one).1
    change toWellFormed (c :: second) = c :: second
    rw [toWellFormed_cons (wellFormedUnit_eq kept), two]
  | case3 c next rest paired ih =>
    have kept : toWellFormed rest = rest := (List.cons.inj (List.cons.inj one).2).2
    change toWellFormed (c :: next :: (rest ++ second)) = c :: next :: (rest ++ second)
    rw [toWellFormed, if_pos paired, ih kept]
  | case4 c next rest alone ih =>
    obtain ⟨kept, later⟩ := List.cons.inj one
    change toWellFormed (c :: (next :: rest ++ second)) = c :: (next :: rest ++ second)
    rw [toWellFormed_cons (wellFormedUnit_eq kept), ih later]

theorem wellFormed_cons {c : CodeUnit} {text : Text} (plain : (isHighSurrogate c || isLowSurrogate c) = false) (rest : WellFormed text) :
    WellFormed (c :: text) :=
  (toWellFormed_cons plain text).trans (congrArg (c :: ·) rest)

theorem wellFormed_of_plain {text : Text} (plain : ∀ c ∈ text, (isHighSurrogate c || isLowSurrogate c) = false) : WellFormed text := by
  induction text with
  | nil => rfl
  | cons c rest ih => exact wellFormed_cons (plain c List.mem_cons_self) (ih fun d member => plain d (List.mem_cons_of_mem c member))

theorem plain_of_lt {c : CodeUnit} (small : c < 0xD800) : (isHighSurrogate c || isLowSurrogate c) = false := by
  have bound : c.toNat < 0xD800 := UInt16.lt_iff_toNat_lt.mp small
  simp [isHighSurrogate, isLowSurrogate, UInt16.le_iff_toNat_le]
  omega

theorem hexDigit_lt {n : Nat} (digit : n < 16) : hexDigit n < 0xD800 := by
  unfold hexDigit
  rw [UInt16.lt_iff_toNat_lt, UInt16.toNat_ofNat']
  split
  next => exact Nat.lt_of_le_of_lt (Nat.mod_le _ _) (by simp; omega)
  next => exact Nat.lt_of_le_of_lt (Nat.mod_le _ _) (by simp; omega)

theorem wellFormed_hex (octets : List UInt8) : WellFormed (hex octets) := by
  apply wellFormed_of_plain
  intro c member
  obtain ⟨octet, -, isDigit⟩ := List.mem_flatMap.mp member
  have bound : octet.toNat < 256 := octet.toNat_lt
  apply plain_of_lt
  rcases List.mem_cons.mp isDigit with rfl | last
  · exact hexDigit_lt (by omega)
  · rw [List.mem_singleton.mp last]
    exact hexDigit_lt (by omega)

theorem wellFormed_jsonEscape (c : CodeUnit) : WellFormed (jsonEscape c) := by
  have bound : c.toNat < 65536 := c.toNat_lt
  have literal : ∀ {text : Text}, (text.all fun d => decide (d < 0xD800)) = true → WellFormed text :=
    fun small => wellFormed_of_plain fun d member => plain_of_lt (each_unit small d member)
  unfold jsonEscape
  dsimp only
  split
  next isQuote =>
    apply literal
    rcases isQuote with rfl | rfl
    · decide
    · decide
  split
  next => exact literal (by decide)
  split
  next => exact literal (by decide)
  split
  next => exact literal (by decide)
  split
  next => exact literal (by decide)
  split
  next => exact literal (by decide)
  split
  next =>
    refine (literal (by decide)).append (wellFormed_of_plain fun d member => plain_of_lt ?_)
    simp only [List.mem_cons, List.not_mem_nil, or_false] at member
    rcases member with rfl | rfl | rfl | rfl
    · exact hexDigit_lt (by omega)
    · exact hexDigit_lt (by omega)
    · exact hexDigit_lt (by omega)
    · exact hexDigit_lt (by omega)
  next ordinary =>
    apply wellFormed_of_plain
    intro d member
    rw [List.mem_singleton.mp member]
    simp [isHighSurrogate, isLowSurrogate, UInt16.le_iff_toNat_le]
    omega

theorem wellFormed_jsonEscapeAll (text : Text) : WellFormed (jsonEscapeAll text) := by
  fun_induction jsonEscapeAll text with
  | case1 => rfl
  | case2 c => exact wellFormed_jsonEscape c
  | case3 c next rest paired ih =>
    have isPair : (isHighSurrogate c && isLowSurrogate next) = true := by
      simp [isHighSurrogate, isLowSurrogate, paired.1, paired.2.1, paired.2.2.1, paired.2.2.2]
    change toWellFormed (c :: next :: jsonEscapeAll rest) = _
    rw [toWellFormed, if_pos isPair, ih]
  | case4 c next rest _ ih => exact (wellFormed_jsonEscape c).append ih

theorem wellFormed_quoteJson (text : Text) : WellFormed (quoteJson text) :=
  wellFormed_cons (by decide) ((wellFormed_jsonEscapeAll text).append (wellFormed_of_plain (each_unit (by decide))))

end WellFormed

end OpenShapeForge.Js
