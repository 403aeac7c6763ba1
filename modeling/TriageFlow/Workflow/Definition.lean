import TriageFlow.Rule.Predicate

/-!
Workflow definitions: a name and a sequence of nodes of six kinds. The id of a node is the key of
its result and the target of jumps to it.
-/

namespace TriageFlow

open Json (Value)

/-- What a node does. -/
inductive NodeKind where
  /-- Applies a registered transform to the inbound record. -/
  | transform (name : String)
  /-- Recalls similar content; the query is a template. -/
  | retrieve (query : String)
  /-- Asks for a structured answer to a prompt template. -/
  | analyze (prompt : String)
  /-- Asks for a text in answer to a prompt template. -/
  | generate (prompt : String)
  /-- Picks the next node from a list of rules. -/
  | route (rules : List RouteRule)
  /-- Hands off a side effect. -/
  | action (name : String) (payload : Value)

namespace NodeKind

/-- The name of a kind. -/
def label : NodeKind → String
  | transform _ => "transform"
  | retrieve _ => "memory_recall"
  | analyze _ => "analyze"
  | generate _ => "generate"
  | route _ => "route"
  | action _ _ => "action"

end NodeKind

/-- One step of a workflow. -/
structure Node where
  id : String
  name : Option String
  /-- Whether the run ends once this node has succeeded. -/
  terminal : Bool
  kind : NodeKind

/-- The name to show for a node. -/
def Node.displayName (n : Node) : String := n.name.getD n.id

/-- A workflow. -/
structure Definition where
  name : String
  nodes : List Node

namespace Definition

/-- The position of a node's id. -/
def indexOf? (d : Definition) (id : String) : Option Nat := d.nodes.findIdx? fun n => n.id == id

/-- Whether a node of this id is declared. -/
def declares (d : Definition) (id : String) : Bool := (d.indexOf? id).isSome

end Definition

end TriageFlow
