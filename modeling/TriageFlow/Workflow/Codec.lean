import TriageFlow.Workflow.Definition
import TriageFlow.Rule.Codec

/-!
The written form of workflow definitions. A node is an object whose field `kind` names its kind;
the fields of the kind stand beside the fields that all nodes have.
-/

namespace TriageFlow

open Json (Value Fields)

/-- The query of a recall node that has none of its own. -/
def defaultQuery : String := "\x7b\x7bcontent\x7d\x7d"

namespace NodeKind

/-- The fields of a kind. -/
def members : NodeKind → List (String × Value)
  | transform name => [("transform", .string name)]
  | retrieve query => [("query", .string query)]
  | analyze prompt => [("prompt", .string prompt)]
  | generate prompt => [("prompt", .string prompt)]
  | route rules => [("routes", .array (rules.map RouteRule.toValue))]
  | action name payload => [("action", .string name), ("payload", payload)]

/-- The labels of the kinds, in their order. -/
def labels : List String :=
  ["transform", "memory_recall", "analyze", "generate", "route", "action"]

/-- The label that a value names, by its text or by its position. -/
def label? : Value → Option String
  | .string s => if labels.contains s then some s else none
  | .number n => n.toNat?.bind fun i => labels[i]?
  | _ => none

/-- The kind that the fields of a node describe. -/
def ofFields? (fields : Fields) : Option NodeKind := do
  let text (key : String) := Json.required Value.toString? (Fields.find? key fields)
  match ← label? (← Fields.find? "kind" fields) with
  | "transform" => return transform (← text "transform")
  | "memory_recall" =>
    return retrieve (← Json.withDefault defaultQuery Value.toString? (Fields.find? "query" fields))
  | "analyze" => return analyze (← text "prompt")
  | "generate" => return generate (← text "prompt")
  | "route" =>
    let rules := Value.toListOf? RouteRule.ofValue?
    return route (← Json.required rules (Fields.find? "routes" fields))
  | "action" => return action (← text "action") ((Fields.find? "payload" fields).getD .null).finite
  | _ => none

end NodeKind

namespace Node

/-- The written form of a node. -/
def toValue (n : Node) : Value :=
  .ofMembers ([("id", .string n.id), ("name", .ofOption n.name), ("terminal", .bool n.terminal),
    ("kind", .string n.kind.label)] ++ n.kind.members)

/-- The node that a value describes. -/
def ofValue? : Value → Option Node
  | .object fields => do
    let id ← Json.required Value.toString? (Fields.find? "id" fields)
    let name ← Json.optional Value.toString? (Fields.find? "name" fields)
    let terminal ← Json.withDefault false Value.toBool? (Fields.find? "terminal" fields)
    return ⟨id, name, terminal, ← NodeKind.ofFields? fields⟩
  | _ => none

end Node

namespace Definition

/-- The written form of a definition. -/
def toValue (d : Definition) : Value :=
  .ofMembers [("name", .string d.name), ("nodes", .array (d.nodes.map Node.toValue))]

/-- The definition that a value describes. -/
def ofValue? (v : Value) : Option Definition := do
  match ← Json.slots? ["name", "nodes"] v with
  | [name, nodes] =>
    return ⟨← Json.required Value.toString? name,
      ← Json.withDefault [] (Value.toListOf? Node.ofValue?) nodes⟩
  | _ => none

end Definition

end TriageFlow
