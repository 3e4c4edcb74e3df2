import Mathlib.Algebra.Order.Ring.Nat
import Mathlib.Data.List.Infix
import Mathlib.Data.List.Nodup
import Mathlib.Data.List.Sort
import OpenShapeForge.Library.Delimited

/-! Strings as ECMAScript has them: sequences of UTF-16 code units. -/

namespace OpenShapeForge.Js

abbrev CodeUnit := UInt16

abbrev Text := List CodeUnit

instance lawfulText : LawfulBEq Text := inferInstance

instance lawfulTextPair : LawfulBEq (Text × Text) := inferInstance

/-- A literal of the source, which only holds characters of the basic plane. -/
def js (literal : String) : Text := literal.toList.map fun character => character.val.toUInt16

def unit (character : Char) : CodeUnit := character.val.toUInt16

theorem each_unit {p : CodeUnit → Prop} [DecidablePred p] {text : Text} (all : text.all (fun c => decide (p c)) = true) : ∀ c ∈ text, p c :=
  fun c member => of_decide_eq_true (List.all_eq_true.mp all c member)

/-- WhiteSpace and LineTerminator, which `\s` and `trim` both go by. -/
def isWhitespace (c : CodeUnit) : Bool :=
  (9 ≤ c && c ≤ 13) || c == 32 || c == 160 || c == 0x1680 || (0x2000 ≤ c && c ≤ 0x200A) ||
    c == 0x2028 || c == 0x2029 || c == 0x202F || c == 0x205F || c == 0x3000 || c == 0xFEFF

def trim (text : Text) : Text := ((text.dropWhile isWhitespace).reverse.dropWhile isWhitespace).reverse

def isDigit (c : CodeUnit) : Bool := 48 ≤ c && c ≤ 57

/-- `String(n)` of a whole number that is not negative. -/
def decimal (n : Nat) : Text := (Nat.toDigits 10 n).map fun character => unit character

def hexDigit (digit : Nat) : CodeUnit := UInt16.ofNat (if digit < 10 then digit + 48 else digit + 87)

/-- A code unit as `JSON.stringify` escapes one that stands alone. -/
def jsonEscape (c : CodeUnit) : Text :=
  let n := c.toNat
  if c = unit '"' ∨ c = unit '\\' then [unit '\\', c]
  else if n = 8 then js "\\b"
  else if n = 9 then js "\\t"
  else if n = 10 then js "\\n"
  else if n = 12 then js "\\f"
  else if n = 13 then js "\\r"
  else if n < 32 ∨ (0xD800 ≤ n ∧ n ≤ 0xDFFF) then
    js "\\u" ++ [hexDigit (n / 4096), hexDigit (n / 256 % 16), hexDigit (n / 16 % 16), hexDigit (n % 16)]
  else [c]

/-- A surrogate pair is one character and stays as it is. -/
def jsonEscapeAll : Text → Text
  | [] => []
  | [c] => jsonEscape c
  | c :: next :: rest =>
    if 0xD800 ≤ c ∧ c ≤ 0xDBFF ∧ 0xDC00 ≤ next ∧ next ≤ 0xDFFF then c :: next :: jsonEscapeAll rest
    else jsonEscape c ++ jsonEscapeAll (next :: rest)

/-- `JSON.stringify(text)`. -/
def quoteJson (text : Text) : Text := unit '"' :: jsonEscapeAll text ++ [unit '"']

def segments (path : Text) : List Text := path.splitOn (unit '.')

def join (separator : Text) (parts : List Text) : Text := separator.intercalate parts

theorem not_mem_segments (path : Text) : ∀ segment ∈ segments path, unit '.' ∉ segment := Library.Delimited.not_mem_splitOn path

/-- The index a property key names on an array: decimal digits without a leading zero. -/
def elementKey (key : Text) : Option Nat :=
  let digits := key.map fun c => c.toNat - 48
  let value := digits.foldl (fun total digit => 10 * total + digit) 0
  if key ≠ [] ∧ key.all isDigit = true ∧ (key.head? ≠ some 48 ∨ key.length = 1) ∧ value < 2 ^ 32 - 1 then some value else none

end OpenShapeForge.Js
