import TriageFlow.Text.Split

/-!
Trace ids. An id that comes from outside is any text; a minted one spells 128 random bits in the
fourth version of the form of five groups of hexadecimal digits.
-/

namespace TriageFlow.TraceId

/-- The digit at a position, from the 32 digits of a number of 128 bits. The version stands in
the digit at position 12, the variant in the first two bits of that at position 16. -/
def digitAt (bits position : Nat) : Nat :=
  let digit := bits / Nat.pow 16 (31 - position) % 16
  if position = 12 then 4 else if position = 16 then 8 + digit % 4 else digit

/-- Whether a group starts at a position. -/
def startsGroup (position : Nat) : Bool :=
  position == 8 || position == 12 || position == 16 || position == 20

/-- The character at a position, with a hyphen before a group. -/
def spell (bits position : Nat) : List Char :=
  let digit := Nat.digitChar (digitAt bits position)
  if startsGroup position then ['-', digit] else [digit]

/-- The id of 128 random bits. -/
def minted (bits : Nat) : String := String.ofList ((List.range 32).flatMap (spell bits))

/-- A hexadecimal digit in lower case. -/
def isHexDigit (c : Char) : Bool := c.isDigit || ('a' ≤ c && c ≤ 'f')

/-- What the character at a position of a minted id may be. -/
def fits (position : Nat) (c : Char) : Bool :=
  if position = 8 ∨ position = 13 ∨ position = 18 ∨ position = 23 then c == '-'
  else if position = 14 then c == '4'
  else if position = 19 then c == '8' || c == '9' || c == 'a' || c == 'b'
  else isHexDigit c

/-- Whether a text has the form of a minted id. -/
def isMinted (id : String) : Bool :=
  let cs := id.toList
  cs.length == 36 && (cs.mapIdx fits).all fun b => b

example : minted 0 = "00000000-0000-4000-8000-000000000000" := by decide +kernel
example : isMinted (minted (Nat.pow 2 128 - 1)) = true := by decide +kernel

end TriageFlow.TraceId
