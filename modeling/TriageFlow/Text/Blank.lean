/-!
Blank characters: the white space of the Unicode standard, and texts without it at their ends.
-/

namespace TriageFlow.Text

/-- White space as the Unicode standard defines it. -/
def isBlank (c : Char) : Bool :=
  let n := c.toNat
  (9 ≤ n && n ≤ 13) || n == 0x20 || n == 0x85 || n == 0xA0 || n == 0x1680
    || (0x2000 ≤ n && n ≤ 0x200A) || n == 0x2028 || n == 0x2029 || n == 0x202F || n == 0x205F
    || n == 0x3000

/-- A text without the blanks at its start. -/
def trimStart (cs : List Char) : List Char := cs.dropWhile isBlank

/-- A text without the blanks at its end. -/
def trimEnd (cs : List Char) : List Char := (cs.reverse.dropWhile isBlank).reverse

/-- A text without the blanks at its ends. -/
def trim (cs : List Char) : List Char := trimEnd (trimStart cs)

/-- A string without the blanks at its ends. -/
def trimmed (s : String) : String := String.ofList (trim s.toList)

end TriageFlow.Text
