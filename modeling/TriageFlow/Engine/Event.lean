import TriageFlow.Engine.Collaborator

/-!
What a run makes known while it goes on, and what it asks of its collaborators.
-/

namespace TriageFlow

open Json (Value)

/-- How a run ended. -/
inductive RunStatus where
  | completed
  | aborted
deriving DecidableEq

def RunStatus.name : RunStatus → String
  | completed => "completed"
  | aborted => "aborted"

/-- What an event tells. -/
inductive EventKind where
  | runStarted (workflow : String)
  | nodeCompleted (node : String) (elapsed : Nat)
  | nodeFailed (node : String) (fault : Fault)
  | routeTaken (node target : String)
  | ruleFailed (node : String) (index : Nat) (fault : Fault)
  | danglingTarget (node target : String)
  | degraded (node service : String) (fault : Fault)
  | memorySaved
  | memorySaveFailed (fault : Fault)
  | runFinished (status : RunStatus) (steps : Nat)

/-- An event of the run with a trace id. -/
structure Event where
  traceId : String
  kind : EventKind

namespace Event

/-- The name of an event, its trace id and what it tells, in order. -/
def toValue (e : Event) : Value :=
  let row (name : String) (rest : List Value) : Value :=
    .array (.string name :: .string e.traceId :: rest)
  match e.kind with
  | .runStarted workflow => row "RunStarted" [.string workflow]
  | .nodeCompleted node elapsed => row "NodeCompleted" [.string node, .nat elapsed]
  | .nodeFailed node fault => row "NodeFailed" [.string node, .string fault.message]
  | .routeTaken node target => row "RouteTaken" [.string node, .string target]
  | .ruleFailed node index fault =>
    row "RuleEvaluationFailed" [.string node, .nat index, .string fault.message]
  | .danglingTarget node target => row "DanglingRouteTarget" [.string node, .string target]
  | .degraded node service fault =>
    row "GatewayDegraded" [.string node, .string service, .string fault.message]
  | .memorySaved => row "MemorySaved" []
  | .memorySaveFailed fault => row "MemorySaveFailed" [.string fault.message]
  | .runFinished status steps => row "RunFinished" [.string status.name, .nat steps]

end Event

/-- A call of a collaborator. -/
inductive Call where
  | retrieve (query : String)
  | complete (mode : Mode) (prompt : String)
  | submit (request : ActionRequest)
  | save (content : String) (metadata : Value)

end TriageFlow
