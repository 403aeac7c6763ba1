/-!
Binary floats as exact numbers: a finite value without its sign is `mantissa * 2 ^ exponent`,
and the reals that round to it form an interval. `Binary.readsBack` says whether a decimal lies
in that interval; its ends belong to it exactly when the mantissa is even.
-/

namespace TriageFlow.Decimal

/-- A finite value without its sign, `mantissa * 2 ^ exponent`. -/
structure Binary where
  mantissa : Nat
  exponent : Int
  /-- Whether the value below is half as far away as the value above. -/
  narrowBelow : Bool
deriving DecidableEq

/-- The widths of the two fields of a binary float, after its sign. -/
structure Layout where
  fractionBits : Nat
  exponentBits : Nat

/-- The layout of 64-bit floats. -/
def Layout.double : Layout := ⟨52, 11⟩

/-- The layout of 32-bit floats. -/
def Layout.single : Layout := ⟨23, 8⟩

namespace Layout

/-- The exponent of the least positive value. -/
def leastExponent (l : Layout) : Int := 2 - Int.pow 2 (l.exponentBits - 1) - l.fractionBits

/-- The exact value behind the bits of a finite float; the sign bit is passed over. -/
def decode (l : Layout) (bits : Nat) : Binary :=
  let fraction := bits % Nat.pow 2 l.fractionBits
  let biased := bits / Nat.pow 2 l.fractionBits % Nat.pow 2 l.exponentBits
  if biased = 0 then ⟨fraction, l.leastExponent, false⟩
  else ⟨Nat.pow 2 l.fractionBits + fraction, l.leastExponent + (biased - 1 : Nat),
    fraction == 0 && biased != 1⟩

end Layout

/-- The decimal number `digits * 10 ^ exponent`. -/
structure Dec where
  digits : Nat
  exponent : Int
deriving DecidableEq

/-- Compares `a * 10 ^ i` with `n * 2 ^ j`, exactly. -/
def compareScaled (a : Nat) (i : Int) (n : Nat) (j : Int) : Ordering :=
  compare (a * Nat.pow 10 i.toNat * Nat.pow 2 (-j).toNat)
    (n * Nat.pow 2 j.toNat * Nat.pow 10 (-i).toNat)

namespace Binary

/-- Whether a decimal is among the reals that round to the value. -/
def readsBack (x : Binary) (d : Dec) : Bool :=
  let low := if x.narrowBelow then 4 * x.mantissa - 1 else 4 * x.mantissa - 2
  let high := 4 * x.mantissa + 2
  let closed := x.mantissa % 2 == 0
  let fromLow := compareScaled d.digits d.exponent low (x.exponent - 2)
  let toHigh := compareScaled d.digits d.exponent high (x.exponent - 2)
  (fromLow == .gt || (closed && fromLow == .eq)) && (toHigh == .lt || (closed && toHigh == .eq))

/-- The multiple of `10 ^ k` at or below the value, as a count of `10 ^ k`. -/
def floorAt (x : Binary) (k : Int) : Nat :=
  (x.mantissa * Nat.pow 2 x.exponent.toNat * Nat.pow 10 (-k).toNat) /
    (Nat.pow 2 (-x.exponent).toNat * Nat.pow 10 k.toNat)

/-- Compares the distances from the value to `a` and to `a + 1`, in units of `10 ^ k`. -/
def compareToMiddle (x : Binary) (a : Nat) (k : Int) : Ordering :=
  compare (2 * (x.mantissa * Nat.pow 2 x.exponent.toNat * Nat.pow 10 (-k).toNat))
    ((2 * a + 1) * (Nat.pow 2 (-x.exponent).toNat * Nat.pow 10 k.toNat))

/-- An exponent of ten that the value stays below. -/
def bound (x : Binary) : Int :=
  ((x.mantissa.log2 : Int) + 1 + x.exponent) * 30103 / 100000 + 1

/-- The decimal equal to the value. -/
def exact (x : Binary) : Dec :=
  if 0 ≤ x.exponent then ⟨x.mantissa * Nat.pow 2 x.exponent.toNat, 0⟩
  else ⟨x.mantissa * Nat.pow 5 (-x.exponent).toNat, x.exponent⟩

end Binary

end TriageFlow.Decimal
