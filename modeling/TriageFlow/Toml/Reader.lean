import TriageFlow.Toml.Table
import TriageFlow.Toml.Scalar

/-!
Reading TOML documents. A document is a sequence of lines: headers, which open tables, and
assignments to keys of the table opened last. Its value is an object.
-/

namespace TriageFlow.Toml

open Json (Value)

/-! ## Blanks and comments -/

def isBlank (c : Char) : Bool := c == ' ' || c == '\t'

/-- The text after the blanks of a line. -/
def skipBlanks (cs : List Char) : List Char := cs.dropWhile isBlank

/-- A character that may stand in a comment. -/
def isCommentChar (c : Char) : Bool := c == '\t' || 0x20 ≤ c.toNat

/-- The text after a comment, if there is one. -/
def skipComment : List Char → List Char
  | '#' :: cs => cs.dropWhile isCommentChar
  | cs => cs

/-- The text after the rest of a line that holds nothing more. -/
def endLine? (cs : List Char) : Option (List Char) :=
  match skipComment (skipBlanks cs) with
  | [] => some []
  | '\n' :: cs => some cs
  | '\r' :: '\n' :: cs => some cs
  | _ => none

/-- The text after blanks, comments and line ends, which may stand between the items of an array;
at most `fuel` of them are passed over. -/
def skipSpace : Nat → List Char → List Char
  | 0, cs => cs
  | fuel + 1, cs =>
    match cs with
    | ' ' :: rest => skipSpace fuel rest
    | '\t' :: rest => skipSpace fuel rest
    | '\n' :: rest => skipSpace fuel rest
    | '\r' :: '\n' :: rest => skipSpace fuel rest
    | '#' :: rest => skipSpace fuel (rest.dropWhile isCommentChar)
    | cs => cs

/-! ## Keys -/

/-- A character of a bare key. -/
def isKeyChar (c : Char) : Bool := c.isAlphanum || c == '_' || c == '-'

/-- A single key. -/
def simpleKey? (cs : List Char) : Option (String × List Char) :=
  match cs with
  | '"' :: rest => (lineString? '"' true 0 rest).map fun (k, rest) => (String.ofList k, rest)
  | '\'' :: rest => (lineString? '\'' false 0 rest).map fun (k, rest) => (String.ofList k, rest)
  | cs =>
    let key := cs.takeWhile isKeyChar
    if key.isEmpty then none else some (String.ofList key, cs.dropWhile isKeyChar)

/-- The keys of a dotted key before its last one, its last one, and the text after blanks; at
most `fuel + 1` keys are read. -/
def dottedKey? : Nat → List Char → Option ((List String × String) × List Char)
  | fuel, cs =>
    match simpleKey? (skipBlanks cs) with
    | none => none
    | some (key, rest) =>
      match skipBlanks rest, fuel with
      | '.' :: rest, fuel + 1 =>
        (dottedKey? fuel rest).map fun ((path, last), rest) => ((key :: path, last), rest)
      | rest, _ => some (([], key), rest)

/-- The greatest number of dots in a key. -/
def keyLimit : Nat := 78

/-- A key and the sign of assignment, and the text after blanks. -/
def assignment? (cs : List Char) : Option ((List String × String) × List Char) :=
  match dottedKey? keyLimit cs with
  | some (key, '=' :: rest) => some (key, skipBlanks rest)
  | _ => none

/-! ## Values -/

/-- A character of a scalar that is not a string. -/
def isScalarChar (c : Char) : Bool :=
  c.isAlphanum || c == '_' || c == '-' || c == '+' || c == '.' || c == ':'

/-- A scalar. A date and a time of day may have a blank between them. -/
def readScalar (cs : List Char) : Option (Value × List Char) :=
  match cs with
  | '"' :: _ => (string? cs).map fun (s, rest) => (.string (String.ofList s), rest)
  | '\'' :: _ => (string? cs).map fun (s, rest) => (.string (String.ofList s), rest)
  | _ =>
    let word := cs.takeWhile isScalarChar
    let rest := cs.dropWhile isScalarChar
    match date? word, rest with
    | some (day, []), ' ' :: c :: after =>
      if c.isDigit then
        let time := (c :: after).takeWhile isScalarChar
        (timeAndOffset? time).map fun t =>
          (dateValue (day ++ 'T' :: t), (c :: after).dropWhile isScalarChar)
      else some (dateValue day, rest)
    | _, _ => (plainScalar? word).map fun v => (v, rest)

/-- The items of an array after its opening bracket; at most `fuel` of them are read. -/
def readItems (value : List Char → Option (Value × List Char)) :
    Nat → List Char → Option (List Value × List Char)
  | 0, _ => none
  | fuel + 1, cs =>
    match skipSpace cs.length cs with
    | ']' :: rest => some ([], rest)
    | cs =>
      match value cs with
      | none => none
      | some (v, rest) =>
        match skipSpace rest.length rest with
        | ']' :: rest => some ([v], rest)
        | ',' :: rest => (readItems value fuel rest).map fun (vs, rest) => (v :: vs, rest)
        | _ => none

/-- The entries of an inline table, of which there is one at least, up to its closing brace; at
most `fuel` of them are read. -/
def readEntries (value : List Char → Option (Value × List Char)) :
    Nat → Entries → List Char → Option (Entries × List Char)
  | 0, _, _ => none
  | fuel + 1, entries, cs => do
    let ((path, key), rest) ← assignment? cs
    let (v, rest) ← value rest
    let entries ← entries.assign path key v
    match skipBlanks rest with
    | '}' :: rest => some (entries, rest)
    | ',' :: rest => readEntries value fuel entries rest
    | _ => none

/-- An inline table after its opening brace. -/
def readInline (value : List Char → Option (Value × List Char)) (cs : List Char) :
    Option (Value × List Char) :=
  match skipBlanks cs with
  | '}' :: rest => some (.object [], rest)
  | cs =>
    (readEntries value cs.length [] cs).map fun (entries, rest) =>
      (.ofMembers (membersOf entries), rest)

/-- A value with at most `depth` levels of arrays and inline tables. -/
def readValue : Nat → List Char → Option (Value × List Char)
  | 0, cs => readScalar cs
  | depth + 1, cs =>
    match cs with
    | '[' :: rest =>
      (readItems (readValue depth) (rest.length + 1) rest).map fun (vs, rest) => (.array vs, rest)
    | '{' :: rest => readInline (readValue depth) rest
    | cs => readScalar cs

/-- The greatest nesting of arrays and inline tables. -/
def nestingLimit : Nat := 79

/-! ## Documents -/

/-- A document on its way: what is read, and the header of the table that is open. -/
structure Document where
  root : Entries
  header : List String

/-- The line at the head of a text, which is not empty. -/
def readLine? (d : Document) (cs : List Char) : Option (Document × List Char) :=
  match skipBlanks cs with
  | '[' :: '[' :: rest => do
    match ← dottedKey? keyLimit rest with
    | ((path, key), ']' :: ']' :: rest) =>
      let root ← d.root.openArray path key
      return (⟨root, path ++ [key]⟩, ← endLine? rest)
    | _ => none
  | '[' :: rest => do
    match ← dottedKey? keyLimit rest with
    | ((path, key), ']' :: rest) =>
      let root ← d.root.openTable path key
      return (⟨root, path ++ [key]⟩, ← endLine? rest)
    | _ => none
  | cs =>
    match endLine? cs with
    | some rest => some (d, rest)
    | none => do
      let ((path, key), rest) ← assignment? cs
      let (v, rest) ← readValue nestingLimit rest
      let root ← d.root.assignUnder d.header path key v
      return (⟨root, d.header⟩, ← endLine? rest)

/-- The lines of a text; at most `fuel` of them are read. -/
def readLines? : Nat → Document → List Char → Option Document
  | _, d, [] => some d
  | 0, _, _ => none
  | fuel + 1, d, cs =>
    match readLine? d cs with
    | none => none
    | some (d, rest) => readLines? fuel d rest

/-- A text without the mark of its byte order. -/
def dropMark : List Char → List Char
  | '\uFEFF' :: cs => cs
  | cs => cs

/-- The value of a document. A line takes a character at least. -/
def ofText? (text : String) : Option Value :=
  let cs := dropMark text.toList
  (readLines? cs.length ⟨[], []⟩ cs).map fun d => .ofMembers (membersOf d.root)

end TriageFlow.Toml
