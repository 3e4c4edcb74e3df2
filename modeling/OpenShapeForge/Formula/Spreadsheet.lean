import OpenShapeForge.Canonical.Condition
import OpenShapeForge.Formula.Types
import OpenShapeForge.Js.Dates
import OpenShapeForge.Js.Math
import OpenShapeForge.Js.Unicode
import OpenShapeForge.Library.Occurrences

/-! The text, numeric and calendar functions of the canonical evaluator
(packages/formula/src/canonical/expression-evaluator.ts). -/

namespace OpenShapeForge.Formula.Spreadsheet
open Js Types Canonical.Comparison
open Library.Occurrences hiding indexOf

variable {N : Type} [JsNumber N] [JsMath N] [JsDates N]

def isZero (value : N) : Bool := JsNumber.equal value (JsNumber.ofNat 0)

def unsignedZero (value : N) : N := if isZero value then JsNumber.ofNat 0 else value

section Texts

/-- `String(value)` of a value that is not missing. -/
def stringOf : Value N → Text
  | .boolean value => if value then js "true" else js "false"
  | .number value => JsNumber.toText value
  | .text value => value
  | value => JsMath.objectText value

def toText : Value N → Text
  | .undefined | .null => []
  | .date time => if JsNumber.isNaN time then [] else JsDates.toISOString time
  | value => stringOf value

def wholeCount (value : Value N) : N :=
  let count := JsMath.trunc (toNumber value)
  if JsNumber.isFinite count && JsNumber.less (JsNumber.ofNat 0) count then count else JsNumber.ofNat 0

def precisionOf (value : Value N) : N :=
  if value.isNullish then JsNumber.ofNat 0
  else
    let digits := JsMath.trunc (toNumber value)
    if JsNumber.isFinite digits then digits else JsNumber.ofNat 0

/-- `text.slice(start)` and `text.slice(start, stop)`. -/
def sliceFrom (text : Text) (start : N) : Text := text.drop (JsMath.sliceIndex start text.length)

def slice (text : Text) (start stop : N) : Text :=
  (text.take (JsMath.sliceIndex stop text.length)).drop (JsMath.sliceIndex start text.length)

def leftOf (text count : Value N) : Text := slice (toText text) (JsNumber.ofNat 0) (wholeCount count)

def rightOf (text count : Value N) : Text :=
  if isZero (wholeCount count) then [] else sliceFrom (toText text) (JsNumber.neg (wholeCount count))

/-- The first character is number 1. -/
def mid (text start count : Value N) : Text :=
  let first := JsMath.sub (JsMath.max (JsNumber.ofNat 1) (JsMath.trunc (toNumber start))) (JsNumber.ofNat 1)
  slice (toText text) first (JsNumber.add first (wholeCount count))

/-- The place of an occurrence by its number. Every one is past the one before it, so there are fewer
than the text has characters. -/
def nthFrom (text needle : Text) (nth : N) : Nat → Nat → Nat → Option Nat → Option Nat
  | 0, _, _, _ => none
  | fuel + 1, i, start, place =>
    if JsNumber.less (JsNumber.ofNat i) nth then
      match indexFrom needle text start with
      | none => none
      | some found => nthFrom text needle nth fuel (i + 1) (found + needle.length) (some found)
    else place

def substitute (text needle replacement : Text) (occurrence : Value N) : Text :=
  if needle = [] then text
  else if occurrence.isNullish then join replacement (split needle text)
  else
    let nth := JsMath.trunc (toNumber occurrence)
    if JsNumber.lessEqual (JsNumber.ofNat 1) nth then
      match nthFrom text needle nth (text.length + 1) 0 0 none with
      | none => text
      | some place => text.take place ++ replacement ++ text.drop (place + needle.length)
    else text

end Texts

section Numbers

def shiftDecimal (value digits : N) : N :=
  let parts := (JsNumber.toText value).splitOn (unit 'e')
  let mantissa := parts.headD []
  let exponent := (parts[1]?).getD (js "0")
  JsNumber.ofText (mantissa ++ js "e" ++ JsNumber.toText (JsNumber.add (JsNumber.ofText exponent) digits))

def roundTo (value digits : N) (round : N → N) : N :=
  if !JsNumber.isFinite value then value
  else
    let magnitude := round (shiftDecimal (JsNumber.abs value) digits)
    let sign : N := if JsNumber.less value (JsNumber.ofNat 0) then JsNumber.neg (JsNumber.ofNat 1) else JsNumber.ofNat 1
    unsignedZero (JsNumber.mul sign (shiftDecimal magnitude (JsNumber.neg digits)))

def notANumber : N := JsMath.sub JsMath.infinity JsMath.infinity

def toMultiple (value : N) (significance : Value N) (round : N → N) : N :=
  let step := if significance.isNullish then JsNumber.ofNat 1 else toNumber significance
  if !JsNumber.isFinite value || !JsNumber.isFinite step then notANumber
  else if isZero step then JsNumber.ofNat 0
  else
    let steps := round (JsNumber.ofText (JsMath.toPrecision (JsMath.div value step) 15))
    unsignedZero (JsNumber.ofText (JsMath.toPrecision (JsNumber.mul steps step) 15))

/-- What `Number` is given of a text: digits, a point, signs and exponents. -/
def isNumeric (c : CodeUnit) : Bool :=
  isDigit c || c = unit '.' || c = unit 'e' || c = unit 'E' || c = unit '+' || c = unit '-'

def parseNumberText : Value N → Value N
  | .undefined | .null => .undefined
  | .number value => .number value
  | .boolean value => .number (JsNumber.ofNat (if value then 1 else 0))
  | value =>
    let text := trim (stringOf value)
    let cleaned := text.filter isNumeric
    if text = [] then .undefined
    else if cleaned.any isDigit then .number (JsNumber.ofText cleaned)
    else .number notANumber

end Numbers

section Dates
open JsDates

def fixedUnitMs : DateUnit → Option Nat
  | .milliseconds => some 1
  | .seconds => some 1000
  | .minutes => some 60000
  | .hours => some 3600000
  | .days => some 86400000
  | .weeks => some 604800000
  | _ => none

def calendarUnitMonths : DateUnit → Option Nat
  | .months => some 1
  | .quarters => some 3
  | .years => some 12
  | _ => none

/-- Calendar months, clamped to the end of a shorter month, keeping the time of day. -/
def addMonths (date months : N) : N :=
  if !JsNumber.isFinite months then notANumber
  else
    let year := getUTCFullYear date
    let month := JsNumber.add (getUTCMonth date) months
    let zero : N := JsNumber.ofNat 0
    let lastDay := getUTCDate (dateUTC year (JsNumber.add month (JsNumber.ofNat 1)) zero zero zero zero zero)
    dateUTC year month (JsMath.min (getUTCDate date) lastDay) (getUTCHours date) (getUTCMinutes date) (getUTCSeconds date)
      (getUTCMilliseconds date)

def addToDate (date amount : N) (unit : DateUnit) : N :=
  match calendarUnitMonths unit with
  | some months => addMonths date (JsNumber.mul (JsMath.trunc amount) (JsNumber.ofNat months))
  | none =>
    match fixedUnitMs unit with
    | some size => JsNumber.timeClip (JsNumber.add date (JsNumber.mul amount (JsNumber.ofNat size)))
    | none => notANumber

def monthsBetween (left right : N) : N :=
  JsNumber.add (JsNumber.mul (JsMath.sub (getUTCFullYear left) (getUTCFullYear right)) (JsNumber.ofNat 12))
    (JsMath.sub (getUTCMonth left) (getUTCMonth right))

/-- `left - right` in whole units, truncated toward zero. Calendar units count whole months the way
`addMonths` steps them. -/
def dateDifference (left right : N) (unit : DateUnit) : Value N :=
  match calendarUnitMonths unit with
  | some months =>
    let whole := monthsBetween left right
    let anchor := addMonths right whole
    let zero : N := JsNumber.ofNat 0
    let counted :=
      if JsNumber.less zero whole && JsNumber.less left anchor then JsMath.sub whole (JsNumber.ofNat 1)
      else if JsNumber.less whole zero && JsNumber.less anchor left then JsNumber.add whole (JsNumber.ofNat 1)
      else whole
    .number (unsignedZero (JsMath.trunc (JsMath.div counted (JsNumber.ofNat months))))
  | none =>
    match fixedUnitMs unit with
    | some size => .number (unsignedZero (JsMath.trunc (JsMath.div (JsMath.sub left right) (JsNumber.ofNat size))))
    | none => .undefined

def monthNames : List Text := [
  js "January", js "February", js "March", js "April", js "May", js "June",
  js "July", js "August", js "September", js "October", js "November", js "December"]

def dayNames : List Text :=
  [js "Sunday", js "Monday", js "Tuesday", js "Wednesday", js "Thursday", js "Friday", js "Saturday"]

def nameAt (names : List Text) (place : N) : Text := ((JsNumber.toNat? place).bind fun index => names[index]?).getD []

def pad (value : N) (width : Nat) : Text :=
  let written := JsNumber.toText value
  List.replicate (width - written.length) (unit '0') ++ written

def formatTokens (date : N) : List (Text × Text) :=
  let year := getUTCFullYear date
  let month := JsNumber.add (getUTCMonth date) (JsNumber.ofNat 1)
  let hours := getUTCHours date
  let halfDay := JsMath.rem hours (JsNumber.ofNat 12)
  let clock := if isZero halfDay then JsNumber.ofNat 12 else halfDay
  let quarter := JsNumber.add (JsMath.floor (JsMath.div (getUTCMonth date) (JsNumber.ofNat 3))) (JsNumber.ofNat 1)
  let morning := JsNumber.less hours (JsNumber.ofNat 12)
  [(js "YYYY", pad year 4),
    (js "YY", pad (JsMath.rem year (JsNumber.ofNat 100)) 2),
    (js "Q", JsNumber.toText quarter),
    (js "MMMM", nameAt monthNames (getUTCMonth date)),
    (js "MMM", (nameAt monthNames (getUTCMonth date)).take 3),
    (js "MM", pad month 2),
    (js "M", JsNumber.toText month),
    (js "DD", pad (getUTCDate date) 2),
    (js "D", JsNumber.toText (getUTCDate date)),
    (js "dddd", nameAt dayNames (getUTCDay date)),
    (js "ddd", (nameAt dayNames (getUTCDay date)).take 3),
    (js "d", JsNumber.toText (getUTCDay date)),
    (js "HH", pad hours 2),
    (js "H", JsNumber.toText hours),
    (js "hh", pad clock 2),
    (js "h", JsNumber.toText clock),
    (js "mm", pad (getUTCMinutes date) 2),
    (js "m", JsNumber.toText (getUTCMinutes date)),
    (js "ss", pad (getUTCSeconds date) 2),
    (js "s", JsNumber.toText (getUTCSeconds date)),
    (js "SSS", pad (getUTCMilliseconds date) 3),
    (js "A", if morning then js "AM" else js "PM"),
    (js "a", if morning then js "am" else js "pm"),
    (js "X", JsNumber.toText (JsMath.floor (JsMath.div date (JsNumber.ofNat 1000)))),
    (js "x", JsNumber.toText date),
    (js "ZZ", js "+0000"),
    (js "Z", js "+00:00")]

/-- `[text]` at the front of a format, and what follows it. -/
def bracketed (format : Text) : Option (Text × Text) :=
  match format with
  | c :: rest =>
    if c = unit '[' ∧ unit ']' ∈ rest then
      some (rest.takeWhile (· ≠ unit ']'), (rest.dropWhile (· ≠ unit ']')).tail)
    else none
  | [] => none

/-- Every match takes at least one character of the format. -/
def replaceTokens (tokens : List (Text × Text)) : Nat → Text → Text
  | 0, _ | _, [] => []
  | fuel + 1, c :: rest =>
    match bracketed (c :: rest) with
    | some (quoted, after) => quoted ++ replaceTokens tokens fuel after
    | none =>
      match tokens.find? fun token => token.1.isPrefixOf (c :: rest) with
      | some (token, written) => written ++ replaceTokens tokens fuel ((c :: rest).drop token.length)
      | none => c :: replaceTokens tokens fuel rest

def formatDate (date : N) (format : Option Text) : Text :=
  if JsNumber.isNaN date then []
  else
    match format with
    | none => toISOString date
    | some format => replaceTokens (formatTokens date) format.length format

end Dates

end OpenShapeForge.Formula.Spreadsheet
