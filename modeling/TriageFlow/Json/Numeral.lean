import TriageFlow.Json.Value

/-!
Numerals: the written form of JSON numbers and the number each stands for. A numeral without
fraction and exponent is a whole number as long as it fits 64 bits. Every other numeral is a
float: its leading digits are gathered as long as they fit 64 bits without a sign, and the
result is scaled by one power of ten, rounding once for each of the two steps.
-/

namespace TriageFlow.Json

/-- A numeral in parts. -/
structure Numeral where
  negative : Bool
  /-- The digits before the point. -/
  units : List Nat
  /-- The digits after the point, if there is one. -/
  fraction : Option (List Nat)
  /-- The exponent, if there is one. -/
  exponent : Option Int
deriving DecidableEq

/-- The decimal digits at the head of a text, and the rest. -/
def spanDigits : List Char → List Nat × List Char
  | [] => ([], [])
  | c :: rest =>
    if c.isDigit then
      let (digits, rest) := spanDigits rest
      ((c.toNat - '0'.toNat) :: digits, rest)
    else ([], c :: rest)

/-- The number that some digits stand for. -/
def ofDigits (digits : List Nat) : Nat := digits.foldl (fun n d => 10 * n + d) 0

namespace Numeral

/-- Whether a minus stands in front. -/
def readMinus : List Char → Bool × List Char
  | '-' :: cs => (true, cs)
  | cs => (false, cs)

/-- The digits before the point; a zero stands alone. -/
def readUnits (cs : List Char) : Option (List Nat × List Char) :=
  match spanDigits cs with
  | ([], _) => none
  | (0 :: _ :: _, _) => none
  | (digits, rest) => some (digits, rest)

/-- The fraction, if a point follows. -/
def readFraction : List Char → Option (Option (List Nat) × List Char)
  | '.' :: cs =>
    match spanDigits cs with
    | ([], _) => none
    | (digits, rest) => some (some digits, rest)
  | cs => some (none, cs)

/-- The sign of an exponent. -/
def readSign : List Char → Bool × List Char
  | '-' :: cs => (true, cs)
  | '+' :: cs => (false, cs)
  | cs => (false, cs)

/-- The exponent, if its mark follows. -/
def readExponent : List Char → Option (Option Int × List Char)
  | c :: cs =>
    if c = 'e' ∨ c = 'E' then
      let (negative, cs) := readSign cs
      match spanDigits cs with
      | ([], _) => none
      | (digits, rest) =>
        some (some (if negative then -(ofDigits digits : Int) else ofDigits digits), rest)
    else some (none, c :: cs)
  | [] => some (none, [])

/-- The numeral at the head of a text, and the rest. -/
def read (cs : List Char) : Option (Numeral × List Char) := do
  let (negative, cs) := readMinus cs
  let (units, cs) ← readUnits cs
  let (fraction, cs) ← readFraction cs
  let (exponent, cs) ← readExponent cs
  return (⟨negative, units, fraction, exponent⟩, cs)

/-! ## The number a numeral stands for -/

/-- The greatest number of 64 bits. -/
def greatest : Nat := Nat.pow 2 64 - 1

/-- Appends digits to `n` as long as the result fits 64 bits; counts the digits left over. -/
def gather (n : Nat) : List Nat → Nat × Nat
  | [] => (n, 0)
  | d :: rest =>
    if 10 * n + d ≤ greatest then gather (10 * n + d) rest else (n, rest.length + 1)

/-- The float nearest to `10 ^ k`. -/
def powerOfTen (k : Nat) : Float := Float.ofScientific 1 false k

/-- Divides by `10 ^ k` in steps of at most `10 ^ 308`. -/
def divideByPower : Nat → Float → Nat → Float
  | 0, x, k => x / powerOfTen k
  | fuel + 1, x, k =>
    if k ≤ 308 then x / powerOfTen k
    else
      let y := x / powerOfTen 308
      if y == 0 then y else divideByPower fuel y (k - 308)

/-- The float `n * 10 ^ e`, unless it is too large for one. -/
def scale (n : Nat) (e : Int) : Option Float :=
  let x := Float.ofNat n
  if e < 0 then some (divideByPower 2 x e.natAbs)
  else if e ≤ 308 then
    let y := x * powerOfTen e.natAbs
    if y.isInf then none else some y
  else if n = 0 then some x else none

/-- The greatest exponent that is read at its value. -/
def exponentLimit : Nat := Nat.pow 2 31 - 1

/-- The float a numeral stands for. -/
def toFloat? (x : Numeral) : Option Float :=
  let (n, dropped) := gather 0 x.units
  let fraction := x.fraction.getD []
  let (n, left) := gather n fraction
  let shift : Int := (dropped : Int) - (fraction.length - left : Nat)
  let size := match x.exponent with
    | none => scale n shift
    | some e =>
      if exponentLimit < e.natAbs then if n ≠ 0 ∧ 0 < e then none else some 0
      else scale n (shift + e)
  size.map fun y => if x.negative then -y else y

/-- The number a numeral stands for, unless it is too large. -/
def toNumber? (x : Numeral) : Option Number :=
  let n := ofDigits x.units
  if x.fraction.isNone ∧ x.exponent.isNone ∧ n ≤ greatest then
    if x.negative then
      if n = 0 ∨ Nat.pow 2 63 < n then some (.real (-Float.ofNat n)) else some (.whole (-n))
    else some (.whole n)
  else x.toFloat?.map .real

end Numeral

end TriageFlow.Json
