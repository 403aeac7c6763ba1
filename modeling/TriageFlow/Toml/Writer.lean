import TriageFlow.Json.Value
import TriageFlow.Decimal.Notation
import TriageFlow.Text.Split

/-!
Writing TOML documents. A table first lists its plain entries and then its subtables, each under
a header of its own with an empty line before it; nulls are left out. An array of several items
has one on each line. A string stands in quotes; one that would need escapes there stands between
apostrophes or triple marks where that spares them.
-/

namespace TriageFlow.Toml

open Json (Value Fields Number)

/-! ## Strings and keys -/

/-- How a string is delimited: by which mark, and whether by one or by three of it. -/
structure Style where
  mark : Char
  triple : Bool
deriving DecidableEq

/-- The length of the longest run of a character, after a run of a given length. -/
def longestRun (c : Char) : Nat → List Char → Nat
  | run, [] => run
  | run, d :: cs =>
    if d = c then longestRun c (run + 1) cs else max run (longestRun c 0 cs)

/-- A control character, which needs an escape; tabs and line breaks do not. -/
def isControl (c : Char) : Bool :=
  (c.toNat < 0x20 && c != '\t' && c != '\n') || c.toNat == 0x7F

/-- The styles in the order in which they are tried, each with the texts that it suits: those
that need no escape in it. Triple marks also suit a text of several lines. -/
def candidates (cs : List Char) : List (Style × Bool) :=
  let noControl := !cs.any isControl
  let oneLine := !cs.contains '\n'
  let noBackslash := !cs.contains '\\'
  [(⟨'"', false⟩, noControl && noBackslash && oneLine && !cs.contains '"'),
    (⟨'\'', false⟩, noControl && oneLine && !cs.contains '\''),
    (⟨'"', true⟩, noControl && noBackslash && longestRun '"' 0 cs ≤ 2),
    (⟨'\'', true⟩, noControl && longestRun '\'' 0 cs ≤ 2)]

/-- The style of a text; one that suits no style is written with escapes between quotes. -/
def styleOf (cs : List Char) : Style :=
  match (candidates cs).find? Prod.snd with
  | some (style, _) => style
  | none => ⟨'"', cs.contains '\n'⟩

/-- A code point in four hexadecimal digits. -/
def fourDigits (n : Nat) : List Char :=
  let ds := (Nat.toDigits 16 n).map Char.toUpper
  List.replicate (4 - ds.length) '0' ++ ds

/-- A character between quotes. -/
def escape (triple : Bool) (c : Char) : List Char :=
  match c with
  | '\x08' => ['\\', 'b']
  | '\t' => ['\\', 't']
  | '\n' => if triple then ['\n'] else ['\\', 'n']
  | '\x0c' => ['\\', 'f']
  | '\r' => ['\\', 'r']
  | '\\' => ['\\', '\\']
  | c =>
    if c.toNat < 0x20 ∨ c.toNat = 0x7F then '\\' :: 'u' :: fourDigits c.toNat else [c]

/-- A text between quotes; after `free` quotes in a row the next one is escaped. -/
def escapeText (triple : Bool) : (free : Nat) → List Char → List Char
  | _, [] => []
  | 0, '"' :: cs => '\\' :: '"' :: escapeText triple (if triple then 2 else 0) cs
  | free + 1, '"' :: cs => '"' :: escapeText triple free cs
  | _, c :: cs => escape triple c ++ escapeText triple (if triple then 2 else 0) cs

/-- A text in a style. A text of several lines starts on a line of its own. -/
def Style.write (style : Style) (cs : List Char) : List Char :=
  let mark := List.replicate (if style.triple then 3 else 1) style.mark
  let content :=
    if style.mark = '"' then escapeText style.triple (if style.triple then 2 else 0) cs else cs
  mark ++ (if style.triple && cs.contains '\n' then ['\n'] else []) ++ content ++ mark

/-- A string. -/
def quote (s : String) : List Char := (styleOf s.toList).write s.toList

/-- A key: bare, or else a string on one line. -/
def writeKey (key : String) : List Char :=
  let cs := key.toList
  if !cs.isEmpty && cs.all (fun c => c.isAlphanum || c == '_' || c == '-') then cs
  else
    let style := styleOf cs
    if style.triple then (Style.mk '"' false).write cs else style.write cs

/-! ## Values -/

/-- The digits of a decimal without an exponent, and `.0` behind a whole number. -/
def positional (d : Decimal.Dec) : List Char :=
  let ds := Decimal.digitsOf d.digits
  if 0 ≤ d.exponent then ds ++ List.replicate d.exponent.toNat '0' ++ ['.', '0']
  else
    let places := d.exponent.natAbs
    if places < ds.length then
      ds.take (ds.length - places) ++ '.' :: ds.drop (ds.length - places)
    else '0' :: '.' :: (List.replicate (places - ds.length) '0' ++ ds)

/-- A float. -/
def writeFloat (x : Float) : List Char :=
  let sign := if Nat.pow 2 63 ≤ x.toBits.toNat then ['-'] else []
  if x.isNaN then sign ++ "nan".toList
  else if x.isInf then sign ++ "inf".toList
  else
    let size := Decimal.ofFloat x
    if size.mantissa = 0 then sign ++ "0.0".toList
    else sign ++ positional (size.shortest.strip 20)

/-- A number. -/
def writeNumber : Number → List Char
  | .whole (.ofNat n) => Decimal.digitsOf n
  | .whole (.negSucc n) => '-' :: Decimal.digitsOf (n + 1)
  | .real x => writeFloat x

/-- A value that holds no other value. -/
def writeScalar : Value → List Char
  | .bool b => if b then "true".toList else "false".toList
  | .number n => writeNumber n
  | .string s => quote s
  | _ => []

/-- An array of scalars: up to one item on the line, more items on lines of their own. -/
def writeArray (items : List Value) : List Char :=
  match items with
  | [] => ['[', ']']
  | [v] => '[' :: (writeScalar v ++ [']'])
  | vs =>
    '[' :: (vs.flatMap (fun v => '\n' :: ' ' :: ' ' :: ' ' :: ' ' :: (writeScalar v ++ [',']))
      ++ ['\n', ']'])

/-- A plain entry of a table. -/
def writeEntry (key : String) (v : Value) : List Char :=
  writeKey key ++ " = ".toList ++ (match v with
    | .array items => writeArray items
    | v => writeScalar v) ++ ['\n']

/-! ## Tables -/

/-- Whether a value stands in a plain entry. -/
def isPlain : Value → Bool
  | .object _ => false
  | .null => false
  | _ => true

/-- The header of a table. -/
def writeHeader (path : List String) : List Char :=
  '[' :: ((path.map writeKey).intersperse ['.']).flatten ++ [']', '\n']

/-- The plain entries of a table. -/
def writeEntries (fields : Fields) : List Char :=
  (fields.filter fun f => isPlain f.2).flatMap fun f => writeEntry f.1 f.2

mutual

/-- The blocks of a table: its header with its plain entries, then the blocks of its subtables. A
table that only holds subtables needs no header. -/
def blocks (path : List String) : Value → List (List Char)
  | .object fields =>
    let own := writeHeader path ++ writeEntries fields
    let below := blocksBelow path fields
    if (fields.any fun f => isPlain f.2) || below.isEmpty then own :: below else below
  | _ => []

/-- The blocks of the subtables among some fields. -/
def blocksBelow (path : List String) : List (String × Value) → List (List Char)
  | [] => []
  | (key, v) :: rest => blocks (path ++ [key]) v ++ blocksBelow path rest

end

/-- The text of a document. -/
def write (fields : Fields) : List Char :=
  let own := writeEntries fields
  let all := if own.isEmpty then blocksBelow [] fields else own :: blocksBelow [] fields
  (all.intersperse ['\n']).flatten

end TriageFlow.Toml
