import TriageFlow.Json.Reader
import TriageFlow.Fault

/-!
Structured answers that arrive as text. Models wrap them in code fences; the fences are taken out
before the text is read.
-/

namespace TriageFlow

open Json (Value)

/-- The opening fence of a JSON block. -/
def jsonFence : List Char := ['\x60', '\x60', '\x60', 'j', 's', 'o', 'n']

/-- A fence. -/
def fence : List Char := ['\x60', '\x60', '\x60']

/-- A text without code fences. -/
def withoutFences (cs : List Char) : List Char := Text.erase fence (Text.erase jsonFence cs)

/-- The value in a model's answer. -/
def readModelOutput (text : String) : Except Fault Value :=
  match Value.read? (Text.trim (withoutFences text.toList)) with
  | some v => .ok v
  | none => .error (.malformedOutput ("<json>: " ++ String.ofList (text.toList.take 120)))

end TriageFlow
