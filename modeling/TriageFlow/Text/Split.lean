import TriageFlow.Text.Blank

/-!
Cutting, joining and searching texts. `split` cuts at every separator and has at least one
piece; `erase` takes out a pattern from left to right and does not look at what it joins.
-/

namespace TriageFlow.Text

/-- The first piece of a text cut at a separator, and the other pieces. -/
def split (separator : Char) : List Char → List Char × List (List Char)
  | [] => ([], [])
  | c :: cs =>
    let (piece, pieces) := split separator cs
    if c = separator then ([], piece :: pieces) else (c :: piece, pieces)

/-- Texts with a separator between any two. -/
def join (separator : String) (pieces : List String) : String :=
  String.intercalate separator pieces

/-- The text after a given start. -/
def dropStart? : List Char → List Char → Option (List Char)
  | [], cs => some cs
  | p :: ps, c :: cs => if p = c then dropStart? ps cs else none
  | _ :: _, [] => none

theorem dropStart?_eq_some_iff {start cs rest : List Char} :
    dropStart? start cs = some rest ↔ cs = start ++ rest := by
  fun_induction dropStart? start cs with
  | case1 cs => simp
  | case2 start c cs ih => simp [ih]
  | case3 d start c cs hne => simp [Ne.symm hne]
  | case4 => simp

/-- Whether a pattern occurs in a text. -/
def occurs (pattern : List Char) : List Char → Bool
  | [] => pattern.isEmpty
  | c :: cs => pattern.isPrefixOf (c :: cs) || occurs pattern cs

/-- A text without the occurrences of a pattern, found from left to right; `skip` characters of
the last one found are still to be passed over. -/
def eraseFrom (pattern : List Char) : Nat → List Char → List Char
  | _, [] => []
  | skip + 1, _ :: cs => eraseFrom pattern skip cs
  | 0, c :: cs =>
    if pattern.isPrefixOf (c :: cs) then eraseFrom pattern (pattern.length - 1) cs
    else c :: eraseFrom pattern 0 cs

/-- A text without the occurrences of a pattern that is not empty. -/
def erase (pattern text : List Char) : List Char := eraseFrom pattern 0 text

/-- A text in ASCII lower case. -/
def lower (s : String) : String := String.ofList (s.toList.map Char.toLower)

/-- A text in ASCII upper case. -/
def upper (s : String) : String := String.ofList (s.toList.map Char.toUpper)

/-- The decimal text of a number. -/
def ofNat (n : Nat) : String := String.ofList (Nat.toDigits 10 n)

/-- The number that decimal digits stand for, if there are digits only and at least one. -/
def toNat? (cs : List Char) : Option Nat :=
  if cs.isEmpty ∨ !cs.all Char.isDigit then none
  else some (cs.foldl (fun n c => 10 * n + (c.toNat - '0'.toNat)) 0)

end TriageFlow.Text
