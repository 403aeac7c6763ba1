import TriageFlow.Engine.Execution
import TriageFlow.Workflow.Check

/-!
Runs. A run executes one node after another from the first on: an output moves to the next node
or, at a terminal node, ends the run; a router may jump; a failure aborts. Whatever the end, the
content of the run is then saved to memory, once, and a failure to save is only told.
-/

namespace TriageFlow

open Json (Value)

/-- Where a run stands. -/
inductive Phase where
  /-- The node at this position is due. -/
  | running (index : Nat)
  | aborted (index : Nat) (cause : Fault)
  | completed

namespace Definition

/-- The phase in which the next node after a position is due, or all nodes are done. -/
def advance (d : Definition) (index : Nat) : Phase :=
  if index + 1 < d.nodes.length then .running (index + 1) else .completed

/-- Whether the node at a position ends the run. -/
def isTerminal (d : Definition) (index : Nat) : Bool := d.nodes[index]?.any Node.terminal

/-- The phase after the node at a position. -/
def transition (d : Definition) (index : Nat) : Except Fault Outcome → Phase
  | .error e => .aborted index e
  | .ok (.output _) => if d.isTerminal index then .completed else d.advance index
  | .ok (.jump none) => d.advance index
  | .ok (.jump (some target)) =>
    match d.indexOf? target with
    | some next => .running next
    | none => d.advance index

/-- The phase a run starts in. -/
def firstPhase (d : Definition) : Phase :=
  if d.nodes.isEmpty then .completed else .running 0

end Definition

/-- A run on its way. -/
structure Run where
  context : Context
  phase : Phase
  /-- The number of nodes executed, routers included. -/
  steps : Nat
  /-- What was asked of the collaborators, in order. -/
  calls : List Call
  /-- What was told, in order. -/
  events : List Event
  /-- The milliseconds that it took, once it has ended. -/
  elapsed : Nat

namespace Run

/-- Tells something. -/
def tell (r : Run) (kinds : List EventKind) : Run :=
  { r with events := r.events ++ kinds.map (Event.mk r.context.traceId) }

/-- A run before its first node. -/
def start (d : Definition) (c : Context) : Run :=
  tell ⟨c, d.firstPhase, 0, [], [], 0⟩ [.runStarted d.name]

end Run

/-- What the log holds of an outcome. -/
def outcomeValue : Except Fault Outcome → Value
  | .ok (.output o) => o.toValue
  | .ok (.jump (some target)) => .object [("target", .string target)]
  | .ok (.jump none) => .null
  | .error e => .object [("error", .string e.message)]

/-- How the log marks an outcome. -/
def outcomeStatus : Except Fault Outcome → LogStatus
  | .ok _ => .success
  | .error _ => .failed

/-- What is told of an outcome that took so many milliseconds. -/
def outcomeEvents (node : String) (elapsed : Nat) : Except Fault Outcome → List EventKind
  | .ok (.output _) => [.nodeCompleted node elapsed]
  | .ok (.jump (some target)) => [.routeTaken node target]
  | .ok (.jump none) => []
  | .error e => [.nodeFailed node e]

/-- A context with the output of a node, if it gave one. -/
def Context.keep (c : Context) (node : String) : Except Fault Outcome → Context
  | .ok (.output o) => c.record node o
  | _ => c

namespace Engine

variable {σ : Type}

/-- A run after the execution of the node at a position. -/
def absorb (e : Engine σ) (r : Run) (index : Nat) (n : Node) (x : Execution σ) : Run :=
  let elapsed := e.now.elapsed r.context.traceId r.context.logs.length
  let entry : LogEntry :=
    ⟨r.context.traceId, n.id, outcomeStatus x.outcome, outcomeValue x.outcome, elapsed,
      e.now.logged r.context.traceId r.context.logs.length⟩
  let told := r.tell (x.events ++ outcomeEvents n.id elapsed x.outcome)
  { told with
    context := (r.context.keep n.id x.outcome).log entry
    phase := e.definition.transition index x.outcome
    steps := r.steps + 1
    calls := r.calls ++ x.calls }

/-- One step of a run: the node that is due is executed, unless the limit is reached. -/
def step (e : Engine σ) (r : Run) (s : σ) : Run × σ :=
  match r.phase with
  | .running index =>
    if e.maxSteps ≤ r.steps then ({ r with phase := .aborted index (.stepLimit e.maxSteps) }, s)
    else
      match e.definition.nodes[index]? with
      | none => ({ r with phase := .completed }, s)
      | some n =>
        let x := e.execute n r.context s
        (e.absorb r index n x, x.state)
  | _ => (r, s)

/-- At most `fuel` steps of a run. -/
def drive (e : Engine σ) : Nat → Run → σ → Run × σ
  | 0, r, s => (r, s)
  | fuel + 1, r, s =>
    match r.phase with
    | .running _ =>
      let (r, s) := e.step r s
      drive e fuel r s
    | _ => (r, s)

end Engine

/-- How a run ended. -/
def Run.status (r : Run) : RunStatus :=
  match r.phase with
  | .aborted _ _ => .aborted
  | _ => .completed

/-- Why a run was aborted. -/
def Run.fault? (r : Run) : Option Fault :=
  match r.phase with
  | .aborted _ cause => some cause
  | _ => none

namespace Engine

variable {σ : Type}

/-- What is saved with the content of a run. -/
def metadata (e : Engine σ) (r : Run) : Value :=
  .ofMembers [("trace_id", .string r.context.traceId), ("workflow", .string e.definition.name),
    ("status", .string r.status.name)]

/-- Saves the content of a run. -/
def save (e : Engine σ) (r : Run) (s : σ) : Run × σ :=
  match e.collaborators.memory with
  | none => (r, s)
  | some memory =>
    let metadata := e.metadata r
    let (ending, s) := memory.save r.context.content metadata s
    let told : EventKind := match ending.within e.timeout "memory" with
      | .ok _ => .memorySaved
      | .error fault => .memorySaveFailed fault
    let called : Run := { r with calls := r.calls ++ [Call.save r.context.content metadata] }
    (called.tell [told], s)

/-- Runs the workflow from a context to its end. One step more than the limit allows is taken,
which is the one that notices the limit. -/
def runFrom (e : Engine σ) (c : Context) (s : σ) : Run × σ :=
  let (r, s) := e.drive (e.maxSteps + 1) (.start e.definition c) s
  let (r, s) := e.save r s
  let told := r.tell [.runFinished r.status r.steps]
  ({ told with elapsed := e.now.total r.context.traceId r.steps }, s)

/-- Runs the workflow on an inbound record. -/
def run (e : Engine σ) (input : Value) (traceId : String) (s : σ) : Run × σ :=
  e.runFrom (.start input traceId) s

/-- An engine whose definition has passed its check. -/
def checked (e : Engine σ) : Except Fault (Engine σ) :=
  (e.definition.check e.transforms.contains).map fun _ => e

end Engine

namespace Run

/-- The report of a run, in a fixed order of fields. -/
def report (r : Run) : Value :=
  .object [("status", .string r.status.name), ("steps", .nat r.steps),
    ("error", .ofOption (r.fault?.map Fault.message)), ("elapsed_ms", .nat r.elapsed),
    ("context", r.context.document)]

/-- The text of an output that was generated. -/
def generated? : Output → Option String
  | .generation s => some s
  | _ => none

/-- Whether an output is that of an action. -/
def isAction : Output → Bool
  | .action _ => true
  | _ => false

/-- The reply to the sender: the text generated last, else an acknowledgment. -/
def reply (r : Run) (replies : Replies) : String :=
  match r.status with
  | .aborted => replies.failure
  | .completed =>
    let outputs := r.context.results.map Prod.snd
    match outputs.reverse.findSome? generated? with
    | some s => s
    | none => if outputs.any isAction then replies.escalation else replies.received

end Run

end TriageFlow
