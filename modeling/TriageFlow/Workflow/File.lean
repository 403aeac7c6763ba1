import TriageFlow.Workflow.Codec
import TriageFlow.Toml.Reader
import TriageFlow.Fault

/-!
Workflow definitions in TOML files.
-/

namespace TriageFlow.Definition

/-- The definition in a TOML text. -/
def ofToml (text : String) : Except Fault Definition :=
  match (Toml.ofText? text).bind ofValue? with
  | some d => .ok d
  | none => .error (.definition .malformed)

/-- The definition in a file of a given name; a malformed one is reported with the name. -/
def ofFile (name text : String) : Except Fault Definition :=
  match ofToml text with
  | .ok d => .ok d
  | .error _ => .error (.definition (.inFile name))

end TriageFlow.Definition
