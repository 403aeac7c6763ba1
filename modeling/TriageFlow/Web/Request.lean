import TriageFlow.Text.Split
import TriageFlow.Text.Utf8

/-!
Requests. A header is found by its name in any case, and its first value counts.
-/

namespace TriageFlow.Web

/-- The body of a request: bytes, which need not be a text. -/
structure Body where
  bytes : List UInt8

/-- A text is sent as its bytes. -/
instance : Coe String Body := ⟨fun text => ⟨Text.utf8 text.toList⟩⟩

/-- A request. -/
structure Request where
  method : String
  /-- The path, perhaps with a query. -/
  target : String
  headers : List (String × String)
  body : Body

/-- Whether the value of a header is plain ASCII. -/
def isPlain (value : String) : Bool := value.toList.all fun c => c.toNat < 0x7F

namespace Request

/-- The first value of a header, whose name may be in any case. -/
def firstValue? (r : Request) (name : String) : Option String :=
  (r.headers.find? fun h => Text.lower h.1 == name).map Prod.snd

/-- The first value of a header; one that is not plain ASCII counts as absent. -/
def header? (r : Request) (name : String) : Option String :=
  (r.firstValue? name).filter isPlain

/-- The path without a query and a fragment. -/
def path (r : Request) : String :=
  String.ofList (r.target.toList.takeWhile fun c => c ≠ '?' ∧ c ≠ '#')

end Request

end TriageFlow.Web
