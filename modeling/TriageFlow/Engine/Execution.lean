import TriageFlow.Engine.Event
import TriageFlow.Engine.ModelOutput
import TriageFlow.Workflow.Definition
import TriageFlow.Rule.Route
import TriageFlow.Template
import TriageFlow.Transform

/-!
The execution of one node. A collaborator that is missing or fails gives way to a fixed output,
so that only a transform can fail; what happened on the way is told by events.
-/

namespace TriageFlow

open Json (Value)

/-- The fixed texts of degraded results and of replies. -/
structure Replies where
  notConfigured : String
  generationFailed : String
  escalation : String
  received : String
  failure : String
deriving DecidableEq

/-- The texts unless configured otherwise. -/
def Replies.standard : Replies where
  notConfigured := "AI not configured."
  generationFailed := "The assistant is temporarily unavailable."
  escalation := "A manager is on the way."
  received := "Received."
  failure := "Sorry, we could not process your message."

/-- What a node gave: an output to store, or a router's decision. -/
inductive Outcome where
  | output (output : Output)
  | jump (target : Option String)

/-- A workflow with all that its runs need. -/
structure Engine (σ : Type) where
  definition : Definition
  collaborators : Collaborators σ
  transforms : Transforms
  replies : Replies
  maxSteps : Nat
  /-- The milliseconds that a call of a collaborator is waited for. -/
  timeout : Nat
  /-- The clock that is looked at in the course of a run. -/
  now : Clock

/-- One execution of a node: what came of it, what was asked of the collaborators and what was
told, and the state of the collaborators after it. -/
structure Execution (σ : Type) where
  outcome : Except Fault Outcome
  calls : List Call
  events : List EventKind
  state : σ

namespace Execution

variable {σ : Type}

/-- An execution that gives an output without telling anything. -/
def plain (output : Output) (calls : List Call) (s : σ) : Execution σ :=
  ⟨.ok (.output output), calls, [], s⟩

/-- An execution that gives a substitute for what a service should have given. -/
def degraded (node service : String) (fault : Fault) (output : Output) (calls : List Call) (s : σ) :
    Execution σ :=
  ⟨.ok (.output output), calls, [.degraded node service fault], s⟩

end Execution

namespace Engine

variable {σ : Type}

/-- The text of recalled documents. -/
def recalledText (hits : List Hit) : String :=
  if hits.isEmpty then "Nothing found" else Text.join " | " (hits.map Hit.content)

/-- Executes a recall node. -/
def retrieve (e : Engine σ) (node query : String) (c : Context) (s : σ) : Execution σ :=
  match e.collaborators.memory with
  | none => .degraded node "memory" (.unconfigured "memory") (.recalled "No memory") [] s
  | some memory =>
    let query := Template.interpolate query c
    let (ending, s) := memory.retrieve query s
    match ending.within e.timeout "memory" with
    | .ok hits => .plain (.recalled (recalledText hits)) [.retrieve query] s
    | .error fault => .degraded node "memory" fault (.recalled "Memory error") [.retrieve query] s

/-- The analysis in a structured answer; an answer that holds none is a neutral one. -/
def analysisOf (completion : Completion) : Analysis :=
  let value : Except Fault Value := match completion with
    | .json v => .ok v
    | .text s => readModelOutput s
  match value.bind Analysis.ofValue with
  | .ok a => a
  | .error _ => .neutral

/-- Executes an analysis node. -/
def analyze (e : Engine σ) (node prompt : String) (c : Context) (s : σ) : Execution σ :=
  match e.collaborators.generative with
  | none => .degraded node "generative" (.unconfigured "generative") (.analysis .neutral) [] s
  | some generative =>
    let prompt := Template.interpolate prompt c
    let (ending, s) := generative.complete (some e.timeout) .json prompt s
    match ending.within e.timeout "generative" with
    | .ok completion => .plain (.analysis (analysisOf completion)) [.complete .json prompt] s
    | .error (.malformedOutput _) => .plain (.analysis .neutral) [.complete .json prompt] s
    | .error fault =>
      .degraded node generative.name fault (.analysis .degraded) [.complete .json prompt] s

/-- Executes a generation node. -/
def generate (e : Engine σ) (node prompt : String) (c : Context) (s : σ) : Execution σ :=
  match e.collaborators.generative with
  | none =>
    .degraded node "generative" (.unconfigured "generative") (.generation e.replies.notConfigured)
      [] s
  | some generative =>
    let prompt := Template.interpolate prompt c
    let (ending, s) := generative.complete (some e.timeout) .text prompt s
    match ending.within e.timeout "generative" with
    | .ok completion => .plain (.generation completion.toText) [.complete .text prompt] s
    | .error fault =>
      .degraded node generative.name fault (.generation e.replies.generationFailed)
        [.complete .text prompt] s

/-- What a router tells of a rule that it passed over. -/
def diagnosticEvent (node : String) : RuleDiagnostic → EventKind
  | .failed index fault => .ruleFailed node index fault
  | .dangling _ target => .danglingTarget node target

/-- Executes a router. -/
def route (e : Engine σ) (node : String) (rules : List RouteRule) (c : Context) (s : σ) :
    Execution σ :=
  let decision := RouteDecision.ofRules rules c e.definition.declares
  ⟨.ok (.jump decision.target), [], decision.diagnostics.map (diagnosticEvent node), s⟩

/-- The payload that is handed off: a text is a template, anything else stands as it is. -/
def payloadOf (payload : Value) (c : Context) : Value :=
  match payload with
  | .string template => .string (Template.interpolate template c)
  | v => v

/-- Executes an action node. -/
def act (e : Engine σ) (action : String) (payload : Value) (c : Context) (s : σ) : Execution σ :=
  match e.collaborators.actions with
  | none => .plain (.action ⟨action⟩) [] s
  | some submit =>
    let request : ActionRequest :=
      ⟨action, payloadOf payload c, c.traceId, e.now.present c.traceId c.logs.length⟩
    .plain (.action ⟨action⟩) [.submit request] (submit request s)

/-- Executes a node. -/
def execute (e : Engine σ) (n : Node) (c : Context) (s : σ) : Execution σ :=
  match n.kind with
  | .transform name =>
    ⟨(e.transforms.apply n.id name c).map fun v => .output (.transform v), [], [], s⟩
  | .retrieve query => e.retrieve n.id query c s
  | .analyze prompt => e.analyze n.id prompt c s
  | .generate prompt => e.generate n.id prompt c s
  | .route rules => e.route n.id rules c s
  | .action action payload => e.act action payload c s

end Engine

end TriageFlow
