import TriageFlow.Rule.Predicate
import TriageFlow.Json.Numeral
import TriageFlow.Text.Letter

/-!
The tokens of rule texts. Blanks separate tokens and mean nothing else. A word of letters,
digits, `_` and `-` is a truth value, null, a numeral or a path; a numeral counts as one only
where no further word character follows it.
-/

namespace TriageFlow.Rule

/-- A token of a rule text. -/
inductive Token where
  | opening
  | closing
  | or
  | and
  | not
  | compare (op : Comparison)
  | null
  | truth (value : Bool)
  | number (numeral : List Char)
  | string (content : List Char)
  | path (name : List Char)
deriving DecidableEq

/-- The blanks of rule texts. -/
def isBlank (c : Char) : Bool := c == ' ' || c == '\t' || c == '\r' || c == '\n'

/-- A character of a word. -/
def isWordChar (c : Char) : Bool :=
  Text.isAlphabetic c || c.isDigit || c == '_' || c == '-'

/-- Whether a word goes on at the head of a text. -/
def wordAhead : List Char → Bool
  | c :: _ => isWordChar c
  | [] => false

/-! ## Numerals -/

/-- The digits at the head of a text, and the rest. -/
def takeDigits (cs : List Char) : List Char × List Char :=
  (cs.takeWhile Char.isDigit, cs.dropWhile Char.isDigit)

/-- A point and digits, or nothing. -/
def takeFraction : List Char → List Char × List Char
  | '.' :: cs =>
    match takeDigits cs with
    | ([], _) => ([], '.' :: cs)
    | (digits, rest) => ('.' :: digits, rest)
  | cs => ([], cs)

/-- A sign, or nothing. -/
def takeSign : List Char → List Char × List Char
  | '+' :: cs => (['+'], cs)
  | '-' :: cs => (['-'], cs)
  | cs => ([], cs)

/-- An exponent, or nothing. -/
def takeExponent : List Char → List Char × List Char
  | [] => ([], [])
  | c :: cs =>
    if c = 'e' ∨ c = 'E' then
      let (sign, rest) := takeSign cs
      match takeDigits rest with
      | ([], _) => ([], c :: cs)
      | (digits, rest) => (c :: (sign ++ digits), rest)
    else ([], c :: cs)

/-- A minus, or nothing. -/
def takeMinus : List Char → List Char × List Char
  | '-' :: cs => (['-'], cs)
  | cs => ([], cs)

/-- A numeral that no word character follows. -/
def takeNumeral? (cs : List Char) : Option (List Char × List Char) :=
  let (minus, cs) := takeMinus cs
  match takeDigits cs with
  | ([], _) => none
  | (digits, cs) =>
    let (fraction, cs) := takeFraction cs
    let (exponent, cs) := takeExponent cs
    if wordAhead cs then none else some (minus ++ digits ++ fraction ++ exponent, cs)

/-! ## Words and strings -/

/-- The text after a keyword that no word character follows. -/
def takeKeyword? (keyword : String) (cs : List Char) : Option (List Char) :=
  match Text.dropStart? keyword.toList cs with
  | some rest => if wordAhead rest then none else some rest
  | none => none

/-- The characters of a path: words with single dots between them. -/
def takePath : List Char → List Char × List Char
  | [] => ([], [])
  | c :: cs =>
    if isWordChar c || (c == '.' && wordAhead cs) then
      let (name, rest) := takePath cs
      (c :: name, rest)
    else ([], c :: cs)

/-- What an escaped character stands for. -/
def unescape (c : Char) : Char :=
  match c with
  | 'n' => '\n'
  | 't' => '\t'
  | c => c

/-- The content of a string up to its closing quote, and the text after that. -/
def takeString? (mark : Char) : List Char → Option (List Char × List Char)
  | [] => none
  | '\\' :: c :: cs =>
    (takeString? mark cs).map fun (content, rest) => (unescape c :: content, rest)
  | c :: cs =>
    if c = mark then some ([], cs)
    else if c = '\\' then none
    else (takeString? mark cs).map fun (content, rest) => (c :: content, rest)

/-- A truth value, null, a numeral or a path. -/
def takeWord? (cs : List Char) : Option (Token × List Char) :=
  match takeKeyword? "true" cs with
  | some rest => some (.truth true, rest)
  | none =>
  match takeKeyword? "false" cs with
  | some rest => some (.truth false, rest)
  | none =>
  match takeKeyword? "null" cs with
  | some rest => some (.null, rest)
  | none =>
  match takeNumeral? cs with
  | some (numeral, rest) => some (.number numeral, rest)
  | none =>
    if wordAhead cs then
      let (name, rest) := takePath cs
      some (.path name, rest)
    else none

/-! ## The tokens of a text -/

/-- The token at the head of a text without leading blanks, and the rest. -/
def next? : List Char → Option (Token × List Char)
  | '(' :: cs => some (.opening, cs)
  | ')' :: cs => some (.closing, cs)
  | '|' :: '|' :: cs => some (.or, cs)
  | '&' :: '&' :: cs => some (.and, cs)
  | '=' :: '=' :: '=' :: cs => some (.compare .equal, cs)
  | '=' :: '=' :: cs => some (.compare .equal, cs)
  | '!' :: '=' :: '=' :: cs => some (.compare .notEqual, cs)
  | '!' :: '=' :: cs => some (.compare .notEqual, cs)
  | '!' :: cs => some (.not, cs)
  | '<' :: '=' :: cs => some (.compare .lessOrEqual, cs)
  | '<' :: cs => some (.compare .less, cs)
  | '>' :: '=' :: cs => some (.compare .greaterOrEqual, cs)
  | '>' :: cs => some (.compare .greater, cs)
  | '"' :: cs => (takeString? '"' cs).map fun (content, rest) => (.string content, rest)
  | '\'' :: cs => (takeString? '\'' cs).map fun (content, rest) => (.string content, rest)
  | cs => takeWord? cs

/-- The tokens of a text; at most `fuel` of them are read. -/
def tokensWithin : Nat → List Char → Option (List Token)
  | 0, cs => if (cs.dropWhile isBlank).isEmpty then some [] else none
  | fuel + 1, cs =>
    match cs.dropWhile isBlank with
    | [] => some []
    | cs =>
      match next? cs with
      | none => none
      | some (token, rest) => (tokensWithin fuel rest).map (token :: ·)

/-- The tokens of a text. A token takes a character at least. -/
def tokens? (cs : List Char) : Option (List Token) := tokensWithin cs.length cs

end TriageFlow.Rule
