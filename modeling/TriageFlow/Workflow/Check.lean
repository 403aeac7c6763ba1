import TriageFlow.Workflow.Definition
import TriageFlow.Rule.Reader
import TriageFlow.Context.Basic

/-!
Checking a definition before it runs. Ids that cannot be addressed and transforms that are not
registered refuse it; routes that go nowhere, jump back or cannot be read are only warned of.
-/

namespace TriageFlow

/-- A problem that does not keep a definition from running. -/
inductive Warning where
  /-- A route to a node that is not declared. -/
  | dangling (node target : String)
  /-- A route to the router itself or to a node before it. -/
  | backward (node target : String)
  /-- A rule text that cannot be read. -/
  | invalidRule (node : String) (index : Nat) (fault : Fault)

/-- The text of a warning. -/
def Warning.message : Warning → String
  | dangling node target => "route '" ++ node ++ "' targets unknown node '" ++ target ++ "'"
  | backward node target => "route '" ++ node ++ "' jumps back to '" ++ target ++ "'"
  | invalidRule node index fault =>
    "route '" ++ node ++ "' rule #" ++ Text.ofNat index ++ " is invalid: " ++ fault.message

namespace Node

/-- What is wrong with a node that stands after nodes of given ids. -/
def fault? (registered : String → Bool) (earlier : List String) (n : Node) : Option Fault :=
  if (Text.trim n.id.toList).isEmpty then some (.definition .emptyId)
  else if n.id.toList.contains '.' then some (.definition (.dottedId n.id))
  else if Context.reservedKeys.contains n.id then some (.definition (.reservedId n.id))
  else if earlier.contains n.id then some (.definition (.duplicateId n.id))
  else
    match n.kind with
    | .transform name => if registered name then none else some (.unknownTransform name)
    | _ => none

end Node

namespace Definition

/-- The first thing wrong with some nodes that stand after nodes of given ids. -/
def firstFault? (registered : String → Bool) (earlier : List String) : List Node → Option Fault
  | [] => none
  | n :: rest =>
    match n.fault? registered earlier with
    | some e => some e
    | none => firstFault? registered (earlier ++ [n.id]) rest

/-- The warnings of one rule of the router at a position. -/
def warningsOfRule (d : Definition) (position : Nat) (router : String) (index : Nat)
    (rule : RouteRule) : List Warning :=
  let invalid := match rule.condition with
    | .text source =>
      match Predicate.ofText source with
      | .ok _ => []
      | .error e => [.invalidRule router index (.ruleText e)]
    | .tree _ => []
  let misplaced := match d.indexOf? rule.target with
    | none => [.dangling router rule.target]
    | some target => if target ≤ position then [.backward router rule.target] else []
  invalid ++ misplaced

/-- The warnings of the node at a position. -/
def warningsOfNode (d : Definition) (position : Nat) (n : Node) : List Warning :=
  match n.kind with
  | .route rules =>
    (rules.mapIdx fun index rule => d.warningsOfRule position n.id index rule).flatten
  | _ => []

/-- The warnings of a definition, in the order of its nodes and their rules. -/
def warnings (d : Definition) : List Warning :=
  (d.nodes.mapIdx fun position n => d.warningsOfNode position n).flatten

/-- Refuses a definition, or gives its warnings. -/
def check (d : Definition) (registered : String → Bool) : Except Fault (List Warning) :=
  match firstFault? registered [] d.nodes with
  | some e => .error e
  | none => .ok d.warnings

end Definition

end TriageFlow
