import TriageFlow.Decimal.Notation

/-!
Decimals as floats: the nearest 64-bit float, ties to even. A decimal too large for a finite
float becomes infinite and one too small zero, decided by its scale alone, so that no power of
ten of a written exponent is ever computed.
-/

namespace TriageFlow.Decimal

/-- The 64-bit float nearest to a decimal. -/
def Dec.toFloat (d : Dec) : Float :=
  let scale := (digitsOf d.digits).length + d.exponent
  if d.digits = 0 ∨ scale < -400 then 0
  else if 400 < scale then 1 / 0
  else Float.ofScientific d.digits (d.exponent < 0) d.exponent.natAbs

/-- The number that decimal digits stand for. -/
def ofDigits (cs : List Char) : Nat :=
  cs.foldl (fun n c => 10 * n + (c.toNat - '0'.toNat)) 0

/-- A written exponent, its mark passed over. -/
def exponentOf : List Char → Int
  | '-' :: cs => -(ofDigits cs : Int)
  | '+' :: cs => ofDigits cs
  | cs => ofDigits cs

/-- The decimal of a numeral without sign: digits, with or without a point and an exponent. -/
def Dec.ofNumeral (cs : List Char) : Dec :=
  let units := cs.takeWhile Char.isDigit
  let rest := cs.dropWhile Char.isDigit
  let fraction := match rest with
    | '.' :: rest => rest.takeWhile Char.isDigit
    | _ => []
  let exponent := match rest.dropWhile (fun c => c != 'e' && c != 'E') with
    | _ :: rest => exponentOf rest
    | [] => 0
  ⟨ofDigits (units ++ fraction), exponent - fraction.length⟩

/-- The 64-bit float nearest to a numeral, which may have a sign. -/
def floatOfNumeral : List Char → Float
  | '-' :: cs => -(Dec.ofNumeral cs).toFloat
  | '+' :: cs => (Dec.ofNumeral cs).toFloat
  | cs => (Dec.ofNumeral cs).toFloat

end TriageFlow.Decimal
