import TriageFlow.Text.Utf8
import TriageFlow.Text.Split

/-!
Percent coding: a byte as `%` and two hexadecimal digits. What is no such triple stands for
itself.
-/

namespace TriageFlow.Web

/-- A byte that stands for a character below U+0080. -/
def ascii (c : Char) : UInt8 := UInt8.ofNat c.toNat

/-- The value of a hexadecimal digit. -/
def hexValue? (byte : UInt8) : Option Nat :=
  let n := byte.toNat
  if 0x30 ≤ n ∧ n ≤ 0x39 then some (n - 0x30)
  else if 0x41 ≤ n ∧ n ≤ 0x46 then some (n - 0x37)
  else if 0x61 ≤ n ∧ n ≤ 0x66 then some (n - 0x57)
  else none

/-- The byte that two hexadecimal digits stand for. -/
def hexByte? (high low : UInt8) : Option UInt8 := do
  return UInt8.ofNat ((← hexValue? high) * 16 + (← hexValue? low))

/-- Bytes with their triples replaced; `skip` bytes of the last one are still to be passed
over. -/
def percentDecodeFrom : Nat → List UInt8 → List UInt8
  | _, [] => []
  | skip + 1, _ :: bs => percentDecodeFrom skip bs
  | 0, b :: bs =>
    match bs with
    | high :: low :: _ =>
      if b = ascii '%' then
        match hexByte? high low with
        | some byte => byte :: percentDecodeFrom 2 bs
        | none => b :: percentDecodeFrom 0 bs
      else b :: percentDecodeFrom 0 bs
    | _ => b :: percentDecodeFrom 0 bs

/-- Bytes with their triples replaced by the bytes they stand for. -/
def percentDecode (bytes : List UInt8) : List UInt8 := percentDecodeFrom 0 bytes

/-- A hexadecimal digit in upper case. -/
def hexDigit (n : Nat) : Char := (Nat.digitChar n).toUpper

/-- The triple of a byte. -/
def percentEncodeByte (byte : UInt8) : List Char :=
  ['%', hexDigit (byte.toNat / 16), hexDigit (byte.toNat % 16)]

/-- A text in which the characters that must not stand as they are have become the triples of
their bytes. -/
def percentEncode (escaped : Char → Bool) (cs : List Char) : List Char :=
  cs.flatMap fun c =>
    if escaped c then (String.utf8EncodeChar c).flatMap percentEncodeByte else [c]

example : percentDecode (Text.utf8 ['%', '4', '1', '%', 'Z', 'Z', '%']) =
    Text.utf8 ['A', '%', 'Z', 'Z', '%'] := by decide +kernel

end TriageFlow.Web
