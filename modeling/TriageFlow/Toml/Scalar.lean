import TriageFlow.Decimal.Rounding
import TriageFlow.Json.Reader
import TriageFlow.Text.Split

/-!
The scalars of TOML: whole numbers of 64 bits in four bases, floats, truth values, dates and
times, and four kinds of strings. A date or time stands as an object with one field, which holds
its canonical text.
-/

namespace TriageFlow.Toml

open Json (Value Number)

/-! ## Numbers -/

/-- Digits without the underscores between them. -/
def plainDigits? (isDigit : Char → Bool) : List Char → Option (List Char)
  | [] => none
  | [c] => if isDigit c then some [c] else none
  | c :: '_' :: rest =>
    if isDigit c then (plainDigits? isDigit rest).map (c :: ·) else none
  | c :: rest => if isDigit c then (plainDigits? isDigit rest).map (c :: ·) else none

/-- The digits of a decimal number, which has no leading zero. -/
def decimalDigits? (cs : List Char) : Option (List Char) :=
  match plainDigits? Char.isDigit cs with
  | some ('0' :: _ :: _) => none
  | digits => digits

/-- A sign, as whether the number is negative. -/
def splitSign : List Char → Bool × List Char
  | '-' :: cs => (true, cs)
  | '+' :: cs => (false, cs)
  | cs => (false, cs)

/-- The value of digits in a base. -/
def ofDigits (base : Nat) (cs : List Char) : Nat :=
  cs.foldl (fun n c => base * n + ((Json.hexValue? c).getD 0)) 0

/-- A whole number of 64 bits with a sign. -/
def wholeWithin (n : Int) : Option Value :=
  if -Int.pow 2 63 ≤ n ∧ n < Int.pow 2 63 then some (.number (.whole n)) else none

/-- A whole number. -/
def integer? : List Char → Option Value
  | '0' :: 'x' :: cs =>
    (plainDigits? (fun c => (Json.hexValue? c).isSome) cs).bind fun ds =>
      wholeWithin (ofDigits 16 ds)
  | '0' :: 'o' :: cs =>
    (plainDigits? (fun c => '0' ≤ c && c ≤ '7') cs).bind fun ds => wholeWithin (ofDigits 8 ds)
  | '0' :: 'b' :: cs =>
    (plainDigits? (fun c => c == '0' || c == '1') cs).bind fun ds => wholeWithin (ofDigits 2 ds)
  | cs =>
    let (negative, cs) := splitSign cs
    (decimalDigits? cs).bind fun ds =>
      let n : Int := ofDigits 10 ds
      wholeWithin (if negative then -n else n)

/-- An exponent, its mark passed over. -/
def exponent? (cs : List Char) : Option (List Char) :=
  let (negative, cs) := splitSign cs
  (plainDigits? Char.isDigit cs).map fun ds => if negative then '-' :: ds else ds

/-- The parts of a text before and after the first character of a kind. -/
def cutAt (p : Char → Bool) (cs : List Char) : List Char × Option (List Char) :=
  (cs.takeWhile (fun c => !p c), match cs.dropWhile (fun c => !p c) with
    | _ :: rest => some rest
    | [] => none)

/-- A float written with a fraction, an exponent or both. -/
def finiteFloat? (cs : List Char) : Option Float := do
  let (negative, cs) := splitSign cs
  let (size, exponent) := cutAt (fun c => c == 'e' || c == 'E') cs
  let (units, fraction) := cutAt (· == '.') size
  let units ← decimalDigits? units
  let fraction ← match fraction with
    | none => if exponent.isNone then none else some []
    | some ds => (plainDigits? Char.isDigit ds).map ('.' :: ·)
  let exponent ← match exponent with
    | none => some []
    | some e => (exponent? e).map ('e' :: ·)
  let x := Decimal.floatOfNumeral (units ++ fraction ++ exponent)
  if negative then some (-x) else if x.isInf then none else some x

/-- A float. -/
def float? (cs : List Char) : Option Value :=
  let (negative, rest) := splitSign cs
  let signed (x : Float) : Value := .float (if negative then -x else x)
  if rest = "inf".toList then some (signed (1 / 0))
  else if rest = "nan".toList then some (signed (0 / 0))
  else (finiteFloat? cs).map .float

/-! ## Dates and times -/

/-- A number of exactly so many digits at the head of a text, and the rest. -/
def fixed? (width : Nat) (cs : List Char) : Option (Nat × List Char) :=
  let ds := cs.take width
  if ds.length = width ∧ ds.all Char.isDigit then some (ofDigits 10 ds, cs.drop width) else none

/-- The text after an expected character. -/
def expect? (c : Char) : List Char → Option (List Char)
  | d :: cs => if c = d then some cs else none
  | [] => none

/-- A number with leading zeros. -/
def padded (width n : Nat) : List Char :=
  let ds := Nat.toDigits 10 n
  List.replicate (width - ds.length) '0' ++ ds

def isLeapYear (y : Nat) : Bool := (y % 4 == 0 && y % 100 != 0) || y % 400 == 0

/-- The days of a month. -/
def daysOf (year month : Nat) : Nat :=
  if month = 2 then if isLeapYear year then 29 else 28
  else if [4, 6, 9, 11].contains month then 30 else 31

/-- A date, in canonical form. -/
def date? (cs : List Char) : Option (List Char × List Char) := do
  let (year, cs) ← fixed? 4 cs
  let (month, cs) ← fixed? 2 (← expect? '-' cs)
  let (day, cs) ← fixed? 2 (← expect? '-' cs)
  if 1 ≤ month ∧ month ≤ 12 ∧ 1 ≤ day ∧ day ≤ daysOf year month then
    some (padded 4 year ++ '-' :: padded 2 month ++ '-' :: padded 2 day, cs)
  else none

/-- The fraction of a second, to nine digits and without trailing zeros. -/
def secondFraction? : List Char → Option (List Char × List Char)
  | '.' :: cs =>
    let ds := cs.takeWhile Char.isDigit
    if ds.isEmpty then none
    else
      let kept := ((ds.take 9).reverse.dropWhile (· == '0')).reverse
      some (if kept.isEmpty then [] else '.' :: kept, cs.dropWhile Char.isDigit)
  | cs => some ([], cs)

/-- A time of day, in canonical form. -/
def time? (cs : List Char) : Option (List Char × List Char) := do
  let (hour, cs) ← fixed? 2 cs
  let (minute, cs) ← fixed? 2 (← expect? ':' cs)
  let (second, cs) ← fixed? 2 (← expect? ':' cs)
  let (fraction, cs) ← secondFraction? cs
  if hour < 24 ∧ minute < 60 ∧ second ≤ 60 then
    some (padded 2 hour ++ ':' :: padded 2 minute ++ ':' :: padded 2 second ++ fraction, cs)
  else none

/-- An offset from universal time, or nothing, in canonical form. -/
def offset? : List Char → Option (List Char)
  | [] => some []
  | c :: cs =>
    if c = 'Z' ∨ c = 'z' then if cs.isEmpty then some ['Z'] else none
    else if c = '+' ∨ c = '-' then do
      let (hour, cs) ← fixed? 2 cs
      let (minute, cs) ← fixed? 2 (← expect? ':' cs)
      if hour < 24 ∧ minute < 60 ∧ cs.isEmpty then
        let sign := if c = '-' ∧ hour + minute ≠ 0 then '-' else '+'
        some (sign :: padded 2 hour ++ ':' :: padded 2 minute)
      else none
    else none

/-- A time of day with or without an offset, in canonical form. -/
def timeAndOffset? (cs : List Char) : Option (List Char) := do
  let (time, cs) ← time? cs
  let offset ← offset? cs
  return time ++ offset

/-- The field that holds the text of a date or time. -/
def dateField : String := "$__toml_private_datetime"

/-- The value of a date or time. -/
def dateValue (text : List Char) : Value := .object [(dateField, .string (String.ofList text))]

/-- A date, a time of day, or both with a letter between them. -/
def date (cs : List Char) : Option Value :=
  match date? cs with
  | some (day, []) => some (dateValue day)
  | some (day, c :: rest) =>
    if c = 'T' ∨ c = 't' then (timeAndOffset? rest).map fun time => dateValue (day ++ 'T' :: time)
    else none
  | none =>
    match time? cs with
    | some (time, []) => some (dateValue time)
    | _ => none

/-- A scalar that is not a string. -/
def plainScalar? (cs : List Char) : Option Value :=
  if cs = "true".toList then some (.bool true)
  else if cs = "false".toList then some (.bool false)
  else (integer? cs).or ((float? cs).or (date cs))

/-! ## Strings -/

/-- A character that may stand in a string as it is; a tab may, other control characters may
not. -/
def isStringChar (c : Char) : Bool := c == '\t' || (0x20 ≤ c.toNat && c.toNat != 0x7F)

/-- The character of a code point. -/
def charOf? (n : Nat) : Option Char :=
  if n < 0xD800 ∨ (0xDFFF < n ∧ n < 0x110000) then some (Char.ofNat n) else none

/-- The character that a one-letter escape stands for. -/
def escaped? : Char → Option Char
  | 'b' => some '\x08'
  | 't' => some '\t'
  | 'n' => some '\n'
  | 'f' => some '\x0c'
  | 'r' => some '\r'
  | '"' => some '"'
  | '\\' => some '\\'
  | _ => none

/-- The character of an escape of so many hexadecimal digits. -/
def codeEscape? (width : Nat) (cs : List Char) : Option Char :=
  let ds := cs.take width
  if ds.length = width ∧ ds.all (fun c => (Json.hexValue? c).isSome) then charOf? (ofDigits 16 ds)
  else none

/-- What an escape stands for, its backslash passed over, and its length. -/
def escape? : List Char → Option (Char × Nat)
  | 'u' :: cs => (codeEscape? 4 cs).map fun c => (c, 5)
  | 'U' :: cs => (codeEscape? 8 cs).map fun c => (c, 9)
  | c :: _ => (escaped? c).map fun c => (c, 1)
  | [] => none

/-- The blanks and line ends at the head of a text, as a number of characters; a line end may be
a pair. -/
def foldedLength : List Char → Nat
  | ' ' :: cs => foldedLength cs + 1
  | '\t' :: cs => foldedLength cs + 1
  | '\n' :: cs => foldedLength cs + 1
  | '\r' :: '\n' :: cs => foldedLength cs + 2
  | _ => 0

/-- The length of a line fold, its backslash passed over: blanks, a line end and all blanks and
line ends after it. -/
def fold? (cs : List Char) : Option Nat :=
  let blanks := cs.takeWhile fun c => c == ' ' || c == '\t'
  match cs.drop blanks.length with
  | '\n' :: _ => some (foldedLength cs)
  | '\r' :: '\n' :: _ => some (foldedLength cs)
  | _ => none

/-- The content of a one-line string up to its closing mark, and the text after it; `skip`
characters of an escape are still to be passed over. -/
def lineString? (mark : Char) (escapes : Bool) :
    Nat → List Char → Option (List Char × List Char)
  | _, [] => none
  | skip + 1, _ :: cs => lineString? mark escapes skip cs
  | 0, c :: cs =>
    if c = mark then some ([], cs)
    else if escapes && c == '\\' then
      match escape? cs with
      | none => none
      | some (d, length) =>
        (lineString? mark escapes length cs).map fun (content, rest) => (d :: content, rest)
    else if isStringChar c then
      (lineString? mark escapes 0 cs).map fun (content, rest) => (c :: content, rest)
    else none

/-- The content of a string of several lines up to its three closing marks, and the text after
them. Of more marks in a row the first ones, two at most, belong to the content. -/
def textString? (mark : Char) (escapes : Bool) :
    Nat → List Char → Option (List Char × List Char)
  | _, [] => none
  | skip + 1, _ :: cs => textString? mark escapes skip cs
  | 0, c :: cs =>
    if c = mark then
      let run := (cs.takeWhile (· == mark)).length + 1
      if run < 3 then
        (textString? mark escapes 0 cs).map fun (content, rest) => (c :: content, rest)
      else
        let kept := min (run - 3) 2
        some (List.replicate kept mark, cs.drop (kept + 2))
    else if escapes && c == '\\' then
      match fold? cs with
      | some length => textString? mark escapes length cs
      | none =>
        match escape? cs with
        | none => none
        | some (d, length) =>
          (textString? mark escapes length cs).map fun (content, rest) => (d :: content, rest)
    else if c = '\r' then
      if cs.head? = some '\n' then
        (textString? mark escapes 1 cs).map fun (content, rest) => ('\n' :: content, rest)
      else none
    else if c = '\n' || isStringChar c then
      (textString? mark escapes 0 cs).map fun (content, rest) => (c :: content, rest)
    else none

/-- A text without a line end at its head. -/
def dropLineEnd : List Char → List Char
  | '\n' :: cs => cs
  | '\r' :: '\n' :: cs => cs
  | cs => cs

/-- A string of any kind, and the text after it. -/
def string? : List Char → Option (List Char × List Char)
  | '"' :: '"' :: '"' :: cs => textString? '"' true 0 (dropLineEnd cs)
  | '\'' :: '\'' :: '\'' :: cs => textString? '\'' false 0 (dropLineEnd cs)
  | '"' :: cs => lineString? '"' true 0 cs
  | '\'' :: cs => lineString? '\'' false 0 cs
  | _ => none

end TriageFlow.Toml
