import TriageFlow.Context.Basic

/-!
Templates: texts with placeholders `{{path}}`. A placeholder starts at a pair of opening braces
that is followed on the same line by a pair of closing braces, and ends at the nearest such pair.
Inserted text is not looked at again.
-/

namespace TriageFlow

open Json (Value)

/-- A piece of a template. -/
inductive Piece where
  | literal (c : Char)
  | placeholder (name : List Char)
deriving DecidableEq

namespace Template

/-- The text up to the nearest pair of closing braces of the line, and the number of characters
of both. -/
def nameAhead : List Char → Option (List Char)
  | '}' :: '}' :: _ => some []
  | c :: cs => if c = '\n' then none else (nameAhead cs).map (c :: ·)
  | [] => none

/-- The pieces of a template; `skip` characters of the last placeholder are still to be passed
over. -/
def piecesFrom : Nat → List Char → List Piece
  | _, [] => []
  | skip + 1, _ :: cs => piecesFrom skip cs
  | 0, c :: cs =>
    match c, cs with
    | '{', '{' :: rest =>
      match nameAhead rest with
      | some name => .placeholder name :: piecesFrom (name.length + 3) cs
      | none => .literal c :: piecesFrom 0 cs
    | _, _ => .literal c :: piecesFrom 0 cs

/-- The pieces of a template. -/
def pieces (template : String) : List Piece := piecesFrom 0 template.toList

/-- The path that a placeholder names. -/
def pathOf (name : List Char) : Path := .ofText (String.ofList name)

/-- The paths of the placeholders, in order. -/
def placeholders (template : String) : List Path :=
  (pieces template).filterMap fun
    | .literal _ => none
    | .placeholder name => some (pathOf name)

/-- The text of a value inside a text: a string as it is, nothing for null or a missing value. -/
def render : Option Value → String
  | none => ""
  | some .null => ""
  | some (.string s) => s
  | some v => v.compact

/-- The text a piece stands for. -/
def expand (c : Context) : Piece → List Char
  | .literal x => [x]
  | .placeholder name => (render (c.lookup (pathOf name))).toList

/-- A template with its placeholders replaced by what they name. -/
def interpolate (template : String) (c : Context) : String :=
  String.ofList ((pieces template).flatMap (expand c))

end Template

end TriageFlow
