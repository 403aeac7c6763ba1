import TriageFlow.Json.Numeral

/-!
Reading JSON text. The reader takes one value and gives back the rest of the text; containers
may nest at most `nestingLimit` levels deep, which is also what the recursion is on. Of two
members of one object with the same key the later one counts.
-/

namespace TriageFlow.Json

/-- The four blanks of JSON. -/
def isBlank (c : Char) : Bool := c == ' ' || c == '\n' || c == '\t' || c == '\r'

/-- The text after its leading blanks. -/
def skipBlanks (cs : List Char) : List Char := cs.dropWhile isBlank

/-- The value of a hexadecimal digit. -/
def hexValue? (c : Char) : Option Nat :=
  if c.isDigit then some (c.toNat - '0'.toNat)
  else if 'a' ≤ c ∧ c ≤ 'f' then some (c.toNat - 'a'.toNat + 10)
  else if 'A' ≤ c ∧ c ≤ 'F' then some (c.toNat - 'A'.toNat + 10)
  else none

/-- The value of four hexadecimal digits. -/
def hexUnit? (a b c d : Char) : Option Nat := do
  let a ← hexValue? a
  let b ← hexValue? b
  let c ← hexValue? c
  let d ← hexValue? d
  return ((a * 16 + b) * 16 + c) * 16 + d

def isHighSurrogate (n : Nat) : Bool := 0xD800 ≤ n && n < 0xDC00

def isLowSurrogate (n : Nat) : Bool := 0xDC00 ≤ n && n < 0xE000

/-- The character of a pair of surrogates. -/
def joinSurrogates (high low : Nat) : Char :=
  Char.ofNat (0x10000 + (high - 0xD800) * 0x400 + (low - 0xDC00))

/-- The character that a one-letter escape stands for. -/
def escaped? : Char → Option Char
  | '"' => some '"'
  | '\\' => some '\\'
  | '/' => some '/'
  | 'b' => some '\x08'
  | 'f' => some '\x0c'
  | 'n' => some '\n'
  | 'r' => some '\r'
  | 't' => some '\t'
  | _ => none

/-- The characters of a string up to its closing quote, and the text after that. -/
def readChars : List Char → Option (List Char × List Char)
  | [] => none
  | '"' :: rest => some ([], rest)
  | '\\' :: 'u' :: a :: b :: c :: d :: rest =>
    match hexUnit? a b c d with
    | none => none
    | some n =>
      if isHighSurrogate n then
        match rest with
        | '\\' :: 'u' :: e :: f :: g :: h :: rest =>
          match hexUnit? e f g h with
          | none => none
          | some low =>
            if isLowSurrogate low then
              (readChars rest).map fun (cs, rest) => (joinSurrogates n low :: cs, rest)
            else none
        | _ => none
      else if isLowSurrogate n then none
      else (readChars rest).map fun (cs, rest) => (Char.ofNat n :: cs, rest)
  | '\\' :: c :: rest =>
    match escaped? c with
    | none => none
    | some c => (readChars rest).map fun (cs, rest) => (c :: cs, rest)
  | c :: rest =>
    if c.toNat < 0x20 ∨ c = '\\' then none
    else (readChars rest).map fun (cs, rest) => (c :: cs, rest)

/-- A string, its opening quote included. -/
def readString : List Char → Option (String × List Char)
  | '"' :: rest => (readChars rest).map fun (cs, rest) => (String.ofList cs, rest)
  | _ => none

/-- A value that is neither array nor object. -/
def readScalar : List Char → Option (Value × List Char)
  | 'n' :: 'u' :: 'l' :: 'l' :: rest => some (.null, rest)
  | 't' :: 'r' :: 'u' :: 'e' :: rest => some (.bool true, rest)
  | 'f' :: 'a' :: 'l' :: 's' :: 'e' :: rest => some (.bool false, rest)
  | '"' :: rest => (readChars rest).map fun (cs, rest) => (.string (String.ofList cs), rest)
  | cs =>
    match Numeral.read cs with
    | none => none
    | some (numeral, rest) => numeral.toNumber?.map fun n => (.number n, rest)

/-- One or more entries with commas between them, up to the closing character `close`. At most
`fuel` entries are read. -/
def readEntries {α : Type} (close : Char) (entry : List Char → Option (α × List Char)) :
    Nat → List Char → Option (List α × List Char)
  | 0, _ => none
  | fuel + 1, cs =>
    match entry (skipBlanks cs) with
    | none => none
    | some (x, rest) =>
      match skipBlanks rest with
      | c :: rest =>
        if c = close then some ([x], rest)
        else if c = ',' then
          (readEntries close entry fuel rest).map fun (xs, rest) => (x :: xs, rest)
        else none
      | [] => none

/-- The entries of a container after its opening character. An entry takes a character at least,
so the length of the text bounds their number. -/
def readContainer {α : Type} (close : Char) (entry : List Char → Option (α × List Char))
    (cs : List Char) : Option (List α × List Char) :=
  match skipBlanks cs with
  | [] => none
  | c :: rest => if c = close then some ([], rest) else readEntries close entry cs.length cs

/-- A member of an object: key, colon, value. -/
def readMember (value : List Char → Option (Value × List Char)) (cs : List Char) :
    Option ((String × Value) × List Char) :=
  match readString cs with
  | none => none
  | some (key, rest) =>
    match skipBlanks rest with
    | ':' :: rest => (value (skipBlanks rest)).map fun (v, rest) => ((key, v), rest)
    | _ => none

/-- The value at the head of a text, with at most `depth` levels of containers. -/
def readValue : Nat → List Char → Option (Value × List Char)
  | 0, cs => readScalar cs
  | depth + 1, cs =>
    match cs with
    | '[' :: rest =>
      (readContainer ']' (readValue depth) rest).map fun (items, rest) => (.array items, rest)
    | '{' :: rest =>
      (readContainer '}' (readMember (readValue depth)) rest).map
        fun (members, rest) => (Value.ofMembers members, rest)
    | cs => readScalar cs

/-- The deepest nesting of arrays and objects that is read. -/
def nestingLimit : Nat := 127

/-- The value of a text that holds one value and blanks around it. -/
def Value.read? (text : List Char) : Option Value :=
  match readValue nestingLimit (skipBlanks text) with
  | some (v, rest) => if (skipBlanks rest).isEmpty then some v else none
  | none => none

/-- The value of a text. -/
def Value.ofText? (text : String) : Option Value := Value.read? text.toList

end TriageFlow.Json
