/-!
UTF-8. Every text has bytes; bytes that are no text are read with U+FFFD in place of every longest
run that starts a character and does not end it, and of every byte that starts none.
-/

namespace TriageFlow.Text

/-- The bytes of a text. -/
def utf8 (cs : List Char) : List UInt8 := cs.flatMap String.utf8EncodeChar

/-- What stands for bytes that are no text. -/
def replacement : Char := Char.ofNat 0xFFFD

/-- A character that has been started. -/
structure Started where
  /-- The bytes still due. -/
  missing : Nat
  /-- The bounds of the next byte. -/
  least : Nat
  greatest : Nat
  /-- The bits read so far. -/
  bits : Nat

/-- What a byte does where a character may start. -/
inductive Lead where
  | whole (c : Char)
  | longer (s : Started)
  | invalid

/-- What a byte does where a character may start. The bounds of the second byte leave out the
longer forms of short characters, the surrogates, and what lies above U+10FFFF. -/
def lead (byte : Nat) : Lead :=
  if byte < 0x80 then .whole (Char.ofNat byte)
  else if byte < 0xC2 then .invalid
  else if byte < 0xE0 then .longer ⟨1, 0x80, 0xBF, byte - 0xC0⟩
  else if byte = 0xE0 then .longer ⟨2, 0xA0, 0xBF, 0⟩
  else if byte = 0xED then .longer ⟨2, 0x80, 0x9F, 0xD⟩
  else if byte < 0xF0 then .longer ⟨2, 0x80, 0xBF, byte - 0xE0⟩
  else if byte = 0xF0 then .longer ⟨3, 0x90, 0xBF, 0⟩
  else if byte < 0xF4 then .longer ⟨3, 0x80, 0xBF, byte - 0xF0⟩
  else if byte = 0xF4 then .longer ⟨3, 0x80, 0x8F, 4⟩
  else .invalid

/-- A started character with one byte more: the whole one, or a longer start. -/
def Started.extend (s : Started) (byte : Nat) : Char ⊕ Started :=
  let bits := s.bits * 64 + byte % 64
  if s.missing ≤ 1 then .inl (Char.ofNat bits) else .inr ⟨s.missing - 1, 0x80, 0xBF, bits⟩

/-- The text of bytes, after the bytes of a started character. -/
def ofUtf8From : Option Started → List UInt8 → List Char
  | none, [] => []
  | some _, [] => [replacement]
  | started, b :: bs =>
    let byte := b.toNat
    let fresh (before : List Char) : List Char :=
      match lead byte with
      | .whole c => before ++ c :: ofUtf8From none bs
      | .longer s => before ++ ofUtf8From (some s) bs
      | .invalid => before ++ replacement :: ofUtf8From none bs
    match started with
    | none => fresh []
    | some s =>
      if s.least ≤ byte ∧ byte ≤ s.greatest then
        match s.extend byte with
        | .inl c => c :: ofUtf8From none bs
        | .inr s => ofUtf8From (some s) bs
      else fresh [replacement]

/-- The text of bytes. -/
def ofUtf8 (bytes : List UInt8) : List Char := ofUtf8From none bytes

/-- The text whose bytes these are, if they are those of a text. -/
def wholeUtf8? (bytes : List UInt8) : Option (List Char) :=
  let cs := ofUtf8 bytes
  if utf8 cs = bytes then some cs else none

example : ofUtf8 (utf8 ['h', 'é', '€', '😀']) = ['h', 'é', '€', '😀'] := by decide +kernel
example : ofUtf8 [0xE2, 0x82, 0x41, 0xFF] = [replacement, 'A', replacement] := by decide +kernel
example : wholeUtf8? [0xE2, 0x82] = none := by decide +kernel
example : ofUtf8 [0xED, 0xA0, 0x80] = [replacement, replacement, replacement] := by decide +kernel

end TriageFlow.Text
