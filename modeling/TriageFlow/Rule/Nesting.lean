import TriageFlow.Text.Letter

/-!
How deeply a rule text nests. Every open group and every negation adds a level until its operand
ends; the count is taken from the characters alone, before the text is read as a rule, and texts
that count too deep are never read.
-/

namespace TriageFlow.Rule

/-- The state of the count between two characters. -/
structure NestingCount where
  /-- The levels of the open groups, the innermost first. -/
  groups : List Nat
  level : Nat
  deepest : Nat
deriving DecidableEq

namespace NestingCount

/-- The level inside the innermost open group. -/
def base (s : NestingCount) : Nat := s.groups.headD 0

/-- The state at level `n`. -/
def enter (s : NestingCount) (n : Nat) : NestingCount :=
  { s with level := n, deepest := max s.deepest n }

/-- The state after an operand. -/
def leave (s : NestingCount) : NestingCount := s.enter s.base

/-- The state after an opening parenthesis. -/
def openGroup (s : NestingCount) : NestingCount :=
  { s.enter (s.level + 1) with groups := (s.level + 1) :: s.groups }

/-- The state after a closing parenthesis. -/
def closeGroup (s : NestingCount) : NestingCount :=
  { s with groups := s.groups.tail }.leave

end NestingCount

mutual

/-- The count over the characters outside strings. -/
def countOutside (s : NestingCount) : List Char → NestingCount
  | [] => s
  | '"' :: cs => countInside s '"' cs
  | '\'' :: cs => countInside s '\'' cs
  | '!' :: '=' :: cs => countOutside s cs
  | '!' :: cs => countOutside (s.enter (s.level + 1)) cs
  | '(' :: cs => countOutside s.openGroup cs
  | ')' :: cs => countOutside s.closeGroup cs
  | c :: cs => countOutside (if Text.isAlphanumeric c then s.leave else s) cs

/-- The count over the characters of a string. A string is an operand. -/
def countInside (s : NestingCount) (mark : Char) : List Char → NestingCount
  | [] => s
  | '\\' :: _ :: cs => countInside s mark cs
  | c :: cs =>
    if c = mark then
      countOutside { s with level := s.base } cs
    else countInside s mark cs

end

/-- The deepest nesting of a rule text. -/
def nestingOf (cs : List Char) : Nat := (countOutside ⟨[], 0, 0⟩ cs).deepest

end TriageFlow.Rule
