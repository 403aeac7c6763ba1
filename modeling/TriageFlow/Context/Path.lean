import TriageFlow.Text.Split

/-!
Dotted paths such as `analysis.is_urgent` or `input.items.0`. A path has at least one segment;
the text of a path is cut at its dots, and blanks around a segment do not belong to it.
-/

namespace TriageFlow

/-- A path: its first segment and the segments below it. -/
structure Path where
  root : String
  rest : List String
deriving DecidableEq, Inhabited

namespace Path

/-- The segments from the root on. -/
def segments (p : Path) : List String := p.root :: p.rest

/-- The path that a text names. -/
def ofText (text : String) : Path :=
  let (first, others) := Text.split '.' text.toList
  let segment (cs : List Char) := String.ofList (Text.trim cs)
  ⟨segment first, others.map segment⟩

/-- The segments with dots between them. -/
def toText (p : Path) : String := Text.join "." p.segments

/-- The last segment. -/
def last (p : Path) : String := p.rest.getLastD p.root

/-- The path without its last segment, if it has two at least. -/
def parent? (p : Path) : Option Path :=
  if p.rest.isEmpty then none else some ⟨p.root, p.rest.dropLast⟩

/-- Whether a segment is empty, as in `a..b`. -/
def hasEmptySegment (p : Path) : Bool := p.segments.any String.isEmpty

end Path

end TriageFlow
