import TriageFlow.Context.Basic

/-!
What a run can reach outside itself: a generative gateway, a memory and an action sink. Their
answers may depend on everything that was asked of them before, which a state `σ` stands for. A
call ends after some time, or never; the engine waits for a limited time only.
-/

namespace TriageFlow

open Json (Value)

/-- How a call ends: with a result after some milliseconds, or never. -/
inductive Ending (α : Type) where
  | settled (result : Except Fault α) (after : Nat)
  | never

/-- What comes of a call that is waited for so many milliseconds. -/
def Ending.within {α : Type} (limit : Nat) (service : String) : Ending α → Except Fault α
  | settled result after =>
    if after ≤ limit then result else .error (.timeout service (limit / 1000))
  | never => .error (.timeout service (limit / 1000))

/-- The shape asked for. -/
inductive Mode where
  | text
  | json
deriving DecidableEq

def Mode.name : Mode → String
  | text => "text"
  | json => "json"

/-- An answer of the generative gateway. -/
inductive Completion where
  | text (text : String)
  | json (value : Value)

/-- An answer as a text. -/
def Completion.toText : Completion → String
  | text s => s
  | json v => v.compact

/-- A document that memory recalls. -/
structure Hit where
  content : String
  similarity : Float32
  metadata : Value

/-- A side effect that a run asks for. -/
structure ActionRequest where
  action : String
  payload : Value
  traceId : String
  requestedAt : Instant

/-- The written form of a request. -/
def ActionRequest.toValue (r : ActionRequest) : Value :=
  .ofMembers [("action", .string r.action), ("payload", r.payload),
    ("trace_id", .string r.traceId), ("requested_at", .string r.requestedAt.zulu)]

/-- A generative gateway. The limit, if there is one, is the time after which nobody waits for
the answer and no further request is made for it. -/
structure Generative (σ : Type) where
  name : String
  complete : (limit : Option Nat) → Mode → (prompt : String) → σ → Ending Completion × σ

/-- A memory of earlier content. -/
structure Memory (σ : Type) where
  retrieve : (query : String) → σ → Ending (List Hit) × σ
  save : (content : String) → (metadata : Value) → σ → Ending Unit × σ

/-- A gateway whose state is a part of a larger state. -/
def Generative.within {σ τ : Type} (g : Generative σ) (part : τ → σ) (update : τ → σ → τ) :
    Generative τ where
  name := g.name
  complete limit mode prompt s :=
    let (ending, inner) := g.complete limit mode prompt (part s)
    (ending, update s inner)

/-- A memory whose state is a part of a larger state. -/
def Memory.within {σ τ : Type} (m : Memory σ) (part : τ → σ) (update : τ → σ → τ) : Memory τ where
  retrieve query s :=
    let (ending, inner) := m.retrieve query (part s)
    (ending, update s inner)
  save content metadata s :=
    let (ending, inner) := m.save content metadata (part s)
    (ending, update s inner)

/-- The collaborators of an engine, as far as they are configured. -/
structure Collaborators (σ : Type) where
  generative : Option (Generative σ)
  memory : Option (Memory σ)
  actions : Option (ActionRequest → σ → σ)

/-- No collaborators. -/
def Collaborators.none {σ : Type} : Collaborators σ := ⟨.none, .none, .none⟩

end TriageFlow
