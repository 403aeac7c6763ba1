import TriageFlow.Json.Value
import TriageFlow.Decimal.Notation

/-!
JSON text. The compact form has no blanks; the indented form puts every item on a line of its
own, two blanks deeper than its container. A string escapes the quote, the backslash and the
control characters below U+0020, and nothing else; a float that is not finite is null.
-/

namespace TriageFlow.Json

/-- A digit of a hexadecimal number, in lower case. -/
def hexDigit (n : Nat) : Char := Nat.digitChar n

/-- A character inside a JSON string. -/
def escape (c : Char) : List Char :=
  match c with
  | '"' => ['\\', '"']
  | '\\' => ['\\', '\\']
  | '\x08' => ['\\', 'b']
  | '\x0c' => ['\\', 'f']
  | '\n' => ['\\', 'n']
  | '\r' => ['\\', 'r']
  | '\t' => ['\\', 't']
  | c =>
    if c.toNat < 0x20 then ['\\', 'u', '0', '0', hexDigit (c.toNat / 16), hexDigit (c.toNat % 16)]
    else [c]

/-- A string in quotes. -/
def quote (s : String) : List Char := '"' :: (s.toList.flatMap escape ++ ['"'])

namespace Number

/-- The text of a number. -/
def write : Number → List Char
  | whole (.ofNat n) => Decimal.digitsOf n
  | whole (.negSucc n) => '-' :: Decimal.digitsOf (n + 1)
  | real x => if x.isFinite then Decimal.renderFloat x else ['n', 'u', 'l', 'l']

end Number

namespace Value

/-- The text of a value that holds no other value. -/
def writeScalar : Value → List Char
  | bool true => ['t', 'r', 'u', 'e']
  | bool false => ['f', 'a', 'l', 's', 'e']
  | number n => n.write
  | string s => quote s
  | _ => ['n', 'u', 'l', 'l']

mutual

/-- The compact text of a value. -/
def write : Value → List Char
  | array [] => ['[', ']']
  | array (v :: rest) => '[' :: (write v ++ writeItems rest)
  | object [] => ['{', '}']
  | object ((k, v) :: rest) => '{' :: (quote k ++ ':' :: (write v ++ writeFields rest))
  | v => writeScalar v

/-- The items of an array after its first, with the closing bracket. -/
def writeItems : List Value → List Char
  | [] => [']']
  | v :: rest => ',' :: (write v ++ writeItems rest)

/-- The fields of an object after its first, with the closing brace. -/
def writeFields : List (String × Value) → List Char
  | [] => ['}']
  | (k, v) :: rest => ',' :: (quote k ++ ':' :: (write v ++ writeFields rest))

end

/-- The compact text of a value. -/
def compact (v : Value) : String := String.ofList v.write

/-- A new line, indented `depth` levels. -/
def newLine (depth : Nat) : List Char := '\n' :: List.replicate (2 * depth) ' '

mutual

/-- The indented text of a value that stands `depth` levels deep. -/
def writeIndented (depth : Nat) : Value → List Char
  | array [] => ['[', ']']
  | array (v :: rest) =>
    '[' :: (newLine (depth + 1) ++ writeIndented (depth + 1) v ++ indentItems depth rest)
  | object [] => ['{', '}']
  | object ((k, v) :: rest) =>
    '{' :: (newLine (depth + 1) ++ quote k ++ ':' :: ' ' :: writeIndented (depth + 1) v
      ++ indentFields depth rest)
  | v => writeScalar v

/-- The items of an array after its first, with the closing bracket. -/
def indentItems (depth : Nat) : List Value → List Char
  | [] => newLine depth ++ [']']
  | v :: rest =>
    ',' :: (newLine (depth + 1) ++ writeIndented (depth + 1) v ++ indentItems depth rest)

/-- The fields of an object after its first, with the closing brace. -/
def indentFields (depth : Nat) : List (String × Value) → List Char
  | [] => newLine depth ++ ['}']
  | (k, v) :: rest =>
    ',' :: (newLine (depth + 1) ++ quote k ++ ':' :: ' ' :: writeIndented (depth + 1) v
      ++ indentFields depth rest)

end

/-- The text of a value with every item on a line of its own. -/
def indented (v : Value) : String := String.ofList (v.writeIndented 0)

end Value

end TriageFlow.Json
