import TriageFlow.Context.Analysis
import TriageFlow.Instant

/-!
The state of one run: the inbound record, the content taken from it, what nodes have stored and
the log of what was executed. A path is looked up through the roots `input`, `content`,
`trace_id` and `logs`, and otherwise through the result stored under its first segment.
-/

namespace TriageFlow

open Json (Value Fields)

/-- The receipt of an action that was handed off. -/
structure Receipt where
  action : String
deriving DecidableEq

namespace Receipt

/-- The fields, the status first. -/
def members (r : Receipt) : List (String × Value) :=
  [("status", .string "executed"), ("action", .string r.action)]

end Receipt

/-- What a node stores under its id. -/
inductive Output where
  | transform (value : Value)
  | recalled (text : String)
  | analysis (analysis : Analysis)
  | generation (text : String)
  | action (receipt : Receipt)

namespace Output

/-- The output as a value. -/
def toValue : Output → Value
  | transform v => v
  | recalled s => .string s
  | analysis a => a.toValue
  | generation s => .string s
  | action r => .ofMembers r.members

/-- The output as a value whose known fields stand first. -/
def document : Output → Value
  | analysis a => .object a.members
  | action r => .object r.members
  | o => o.toValue

/-- The text of an output that is a text. -/
def text? : Output → Option String
  | recalled s => some s
  | generation s => some s
  | _ => none

end Output

/-- How the execution of a node ended. -/
inductive LogStatus where
  | success
  | failed
deriving DecidableEq

def LogStatus.name : LogStatus → String
  | success => "success"
  | failed => "failed"

/-- One execution of a node. -/
structure LogEntry where
  traceId : String
  nodeId : String
  status : LogStatus
  /-- The node's output; for a router that jumped its target, for a failure its text. -/
  output : Value
  /-- The milliseconds that the execution took. -/
  elapsed : Nat
  time : Instant

namespace LogEntry

/-- The fields of an entry. -/
def members (e : LogEntry) : List (String × Value) :=
  [("trace_id", .string e.traceId), ("node_id", .string e.nodeId),
    ("status", .string e.status.name), ("output", e.output), ("elapsed_ms", .nat e.elapsed),
    ("at", .string e.time.zulu)]

end LogEntry

/-- The state of one run. -/
structure Context where
  input : Value
  content : String
  traceId : String
  /-- What nodes stored, the oldest write first. -/
  results : List (String × Output)
  logs : List LogEntry

namespace Context

/-- The keys that belong to the context itself. -/
def reservedKeys : List String := ["input", "content", "trace_id", "logs"]

/-- The text under a key, unless it is empty. -/
def usableText? (input : Value) (key : String) : Option String :=
  match input.field? key with
  | some (.string s) => if s.isEmpty then none else some s
  | _ => none

/-- The keys that the content of an inbound record may stand under, the first one first. -/
def contentFields : List String := ["message", "text"]

/-- The content of an inbound record, if it has one: its message, else its text. -/
def content? (input : Value) : Option String := contentFields.findSome? (usableText? input)

/-- The content of an inbound record, with a placeholder for a record that has none. -/
def contentOf (input : Value) : String := (content? input).getD "Empty"

/-- The context a run starts from. -/
def start (input : Value) (traceId : String) : Context := ⟨input, contentOf input, traceId, [], []⟩

/-- The result stored under an id. -/
def result? (c : Context) (id : String) : Option Output := c.results.lookup id

/-- Stores a result over an earlier one of the same id, as the last one written. -/
def record (c : Context) (id : String) (output : Output) : Context :=
  { c with results := c.results.filter (fun r => r.1 ≠ id) ++ [(id, output)] }

/-- Appends an entry to the log. -/
def log (c : Context) (entry : LogEntry) : Context := { c with logs := c.logs ++ [entry] }

/-! ## Looking up a path -/

/-- The value that the first segment of a path names. -/
def root? (c : Context) (key : String) : Option Value :=
  if key = "input" then some c.input
  else if key = "content" then some (.string c.content)
  else if key = "trace_id" then some (.string c.traceId)
  else if key = "logs" then some (.array (c.logs.map fun e => .ofMembers e.members))
  else (c.result? key).map Output.toValue

/-- The position a segment names in an array; a plus sign may stand before its digits. -/
def index? (segment : String) : Option Nat :=
  match segment.toList with
  | '+' :: cs => Text.toNat? cs
  | cs => Text.toNat? cs

/-- One step down, into an object by key or into an array by position. -/
def child? (v : Value) (segment : String) : Option Value :=
  match v with
  | .object fields => Fields.find? segment fields
  | .array items => (index? segment).bind fun i => items[i]?
  | _ => none

/-- The value below `v` along some segments. -/
def walk (v : Value) : List String → Option Value
  | [] => some v
  | segment :: rest => (child? v segment).bind fun w => walk w rest

/-- The value a path names. -/
def lookup (c : Context) (path : Path) : Option Value :=
  (c.root? path.root).bind fun v => walk v path.rest

/-- The whole context in a fixed order of fields. -/
def document (c : Context) : Value :=
  .object ([("input", c.input), ("content", .string c.content), ("trace_id", .string c.traceId)]
    ++ c.results.map (fun r => (r.1, r.2.document))
    ++ [("logs", .array (c.logs.map fun e => .object e.members))])

end Context

end TriageFlow
