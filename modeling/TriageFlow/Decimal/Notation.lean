import TriageFlow.Decimal.Shortest

/-!
Floats as text: the shortest digits that read back, positional from `0.00001` up to below
`10 ^ 16` and always with a point there, and with a signed exponent elsewhere.
-/

namespace TriageFlow.Decimal

/-- The digits of a natural number. -/
def digitsOf (n : Nat) : List Char := Nat.toDigits 10 n

/-- Moves trailing zeros from the digits to the exponent, at most `fuel` of them. -/
def Dec.strip : Nat → Dec → Dec
  | 0, d => d
  | fuel + 1, d =>
    if d.digits ≠ 0 ∧ d.digits % 10 = 0 then strip fuel ⟨d.digits / 10, d.exponent + 1⟩ else d

/-- The text of a decimal: positional when its leading digit stands for at least `10 ^ -5` and
less than `10 ^ 16`. -/
def Dec.layout (d : Dec) : List Char :=
  let digits := digitsOf d.digits
  let lead := (digits.length : Int) - 1 + d.exponent
  if -5 ≤ lead ∧ lead < 16 then
    if 0 ≤ d.exponent then digits ++ List.replicate d.exponent.toNat '0' ++ ['.', '0']
    else if 0 ≤ lead then
      digits.take (lead.toNat + 1) ++ '.' :: digits.drop (lead.toNat + 1)
    else '0' :: '.' :: (List.replicate (-lead - 1).toNat '0' ++ digits)
  else
    let mark := if lead < 0 then 'e' :: '-' :: digitsOf lead.natAbs
      else 'e' :: '+' :: digitsOf lead.natAbs
    match digits with
    | [] => mark
    | [c] => c :: mark
    | c :: rest => c :: '.' :: (rest ++ mark)

/-- The text of a float given by its exact size and sign. -/
def Binary.render (x : Binary) (negative : Bool) : List Char :=
  let sign := if negative then ['-'] else []
  if x.mantissa = 0 then sign ++ ['0', '.', '0']
  else sign ++ (x.shortest.strip 20).layout

/-- The exact size of a finite 64-bit float. -/
def ofFloat (x : Float) : Binary := Layout.double.decode x.toBits.toNat

/-- The exact size of a finite 32-bit float. -/
def ofFloat32 (x : Float32) : Binary := Layout.single.decode x.toBits.toNat

/-- The text of a finite 64-bit float. -/
def renderFloat (x : Float) : List Char :=
  (ofFloat x).render (Nat.pow 2 63 ≤ x.toBits.toNat)

/-- The 64-bit float that has the shortest decimal of a finite 32-bit float. -/
def widen (x : Float32) : Float :=
  let size := ofFloat32 x
  let d := if size.mantissa = 0 then ⟨0, 0⟩ else size.shortest
  let y := Float.ofScientific d.digits (d.exponent < 0) d.exponent.natAbs
  if Nat.pow 2 31 ≤ x.toBits.toNat then -y else y

example : renderFloat 0.1 = ['0', '.', '1'] := by decide +kernel
example : renderFloat 1e16 = ['1', 'e', '+', '1', '6'] := by decide +kernel
example : renderFloat 0.00001 = ['0', '.', '0', '0', '0', '0', '1'] := by decide +kernel

end TriageFlow.Decimal
