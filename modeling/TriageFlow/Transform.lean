import TriageFlow.Context.Basic

/-!
Transforms: named functions from a run's inbound record to the output of a node. A registry holds
at most one transform of a name. The built-in transform stamps the record with the time at which
it is applied and the trace id.
-/

namespace TriageFlow

open Json (Value Fields)

/-- A named function on the inbound record of a context. -/
structure Transform where
  name : String
  apply : Value → Context → Except Fault Value

/-- The registered transforms. -/
abbrev Transforms := List Transform

/-- The kind of a value, as a noun. -/
def kindOf : Value → String
  | .null => "null"
  | .bool _ => "a boolean"
  | .number _ => "a number"
  | .string _ => "a string"
  | .array _ => "an array"
  | .object _ => "an object"

/-- The built-in transform: the inbound object with the time and the trace id in it. -/
def Transform.normalize (now : Clock) : Transform where
  name := "normalize"
  apply input c :=
    match input with
    | .object fields =>
      .ok (.object (Fields.insert "trace_id" (.string c.traceId)
        (Fields.insert "timestamp"
          (.string (now.present c.traceId c.logs.length).withOffset) fields)))
    | v => .error (.transform "normalize" ("expected an object, got " ++ kindOf v))

namespace Transforms

/-- The registry that holds the built-in transform. -/
def builtIn (now : Clock) : Transforms := [.normalize now]

/-- Registers a transform over an earlier one of the same name. -/
def register (registry : Transforms) (t : Transform) : Transforms :=
  registry.filter (fun u => u.name ≠ t.name) ++ [t]

/-- The transform of a name. -/
def find? (registry : Transforms) (name : String) : Option Transform :=
  List.find? (fun t => t.name == name) registry

/-- Whether a name is registered. -/
def contains (registry : Transforms) (name : String) : Bool := (registry.find? name).isSome

/-- Applies a transform to a context's inbound record. A failure is that of the node which asked
for the transform. -/
def apply (registry : Transforms) (node name : String) (c : Context) : Except Fault Value :=
  match registry.find? name with
  | none => .error (.unknownTransform name)
  | some t =>
    match t.apply c.input c with
    | .ok v => .ok v
    | .error e => .error (.node node e.message)

end Transforms

end TriageFlow
