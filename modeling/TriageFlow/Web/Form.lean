import TriageFlow.Web.Percent

/-!
Form bodies: pairs of a name and a value with `=` between them and `&` between the pairs. A plus
sign is a blank, and then percent coding is undone.
-/

namespace TriageFlow.Web

/-- The bytes cut at every separator. -/
def splitBytes (separator : UInt8) : List UInt8 → List UInt8 × List (List UInt8)
  | [] => ([], [])
  | b :: bs =>
    let (piece, pieces) := splitBytes separator bs
    if b = separator then ([], piece :: pieces) else (b :: piece, pieces)

/-- The text that a name or a value is written for. -/
def formText (bytes : List UInt8) : String :=
  let blanks := bytes.map fun b => if b = ascii '+' then ascii ' ' else b
  String.ofList (Text.ofUtf8 (percentDecode blanks))

/-- The name and the value of a pair; without `=` the value is empty. -/
def formPair (bytes : List UInt8) : String × String :=
  let name := bytes.takeWhile fun b => b ≠ ascii '='
  (formText name, formText ((bytes.drop name.length).drop 1))

/-- The pairs of a form body; empty ones are passed over. -/
def formPairs (body : List UInt8) : List (String × String) :=
  let (first, others) := splitBytes (ascii '&') body
  ((first :: others).filter fun pair => !pair.isEmpty).map formPair

end TriageFlow.Web
