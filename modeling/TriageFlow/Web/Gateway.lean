import TriageFlow.Engine.Run
import TriageFlow.Web.Extraction

/-!
The web gateway: a health report, and a webhook that runs the workflow on an inbound message.
What is wrong with a request is looked for in a fixed order: its token, its body, its message.
-/

namespace TriageFlow.Web

open Json (Value)

/-- An answer; some have no body. -/
structure Response where
  status : Nat
  body : Option Value

/-- Why a webhook is refused. -/
inductive Refusal where
  | unauthorized
  | unreadable (reason : String)
  | noMessage
deriving DecidableEq

namespace Refusal

def status : Refusal → Nat
  | unauthorized => 401
  | _ => 400

def message : Refusal → String
  | unauthorized => "Unauthorized"
  | unreadable reason => reason
  | noMessage => "No message"

/-- The answer to a request that is refused. -/
def response (r : Refusal) : Response :=
  ⟨r.status, some (.ofMembers [("success", .bool false), ("error", .string r.message)])⟩

end Refusal

/-- A workflow on the web; with a token, its webhook asks for it. -/
structure Gateway (σ : Type) where
  engine : Engine σ
  token : Option String

/-- The version of the program. -/
def version : String := "0.3.0"

/-- The start of a form's content type. -/
def formType : List Char := "application/x-www-form-urlencoded".toList

/-- What stands before the token of a request. -/
def tokenMark : List Char := ['B', 'e', 'a', 'r', 'e', 'r', ' ']

/-- The token of a request. -/
def Request.token? (r : Request) : Option String :=
  (r.header? "authorization").bind fun value =>
    (Text.dropStart? tokenMark value.toList).map String.ofList

/-- Whether the content type of a request is that of a form. -/
def Request.isForm (r : Request) : Bool :=
  (r.header? "content-type").any fun t => formType.isPrefixOf t.toList

/-- What an extraction makes of a body: the object of a form's fields, or a JSON value. -/
def Request.read (r : Request) (x : Extraction) : Except String Value :=
  if r.isForm then
    (x.form r).map fun fields => .ofMembers (fields.map fun field => (field.1, .string field.2))
  else x.json r

/-- The inbound record of a webhook. -/
def Request.payload (r : Request) (x : Extraction) : Except Refusal Value :=
  (r.read x).mapError .unreadable

/-- Whether a record has a message: a text that is not empty under one of the keys of contents. -/
def hasMessage (body : Value) : Bool :=
  Context.contentFields.any fun key =>
    ((body.field? key).bind Value.toString?).any fun text => !text.isEmpty

namespace Gateway

variable {σ : Type}

/-- Whether a request may be handled. -/
def admits (g : Gateway σ) (r : Request) : Bool :=
  match g.token with
  | some token => r.token? == some token
  | none => true

/-- The inbound record to run the workflow on, or why there is none. -/
def accept (g : Gateway σ) (x : Extraction) (r : Request) : Except Refusal Value :=
  if g.admits r then
    match r.payload x with
    | .ok input => if hasMessage input then .ok input else .error .noMessage
    | .error e => .error e
  else .error .unauthorized

/-- The health report. -/
def health (g : Gateway σ) : Value :=
  .ofMembers [("status", .string "ok"), ("version", .string version),
    ("workflow", .string g.engine.definition.name)]

/-- The answer to the sender of a message. -/
def outcome (g : Gateway σ) (r : Run) : Value :=
  .ofMembers [("success", .bool (r.status == .completed)),
    ("response", .string (r.reply g.engine.replies)), ("trace_id", .string r.context.traceId)]

/-- Handles a webhook. -/
def webhook (g : Gateway σ) (x : Extraction) (r : Request) (traceId : String) (s : σ) :
    Response × σ :=
  match g.accept x r with
  | .error refusal => (refusal.response, s)
  | .ok input =>
    let (run, s) := g.engine.run input traceId s
    (⟨200, some (g.outcome run)⟩, s)

/-- Answers a request whose body is read by an extraction; a run that it starts has the given trace
id. Questions about what is allowed are answered on every path. -/
def respond (g : Gateway σ) (x : Extraction) (r : Request) (traceId : String) (s : σ) :
    Response × σ :=
  if r.method = "OPTIONS" then (⟨200, none⟩, s)
  else if r.path = "/api/health" then
    if r.method = "GET" then (⟨200, some g.health⟩, s)
    else if r.method = "HEAD" then (⟨200, none⟩, s)
    else (⟨405, none⟩, s)
  else if r.path = "/webhook" then
    if r.method = "POST" then g.webhook x r traceId s else (⟨405, none⟩, s)
  else (⟨404, none⟩, s)

/-- Answers a request whose body is read as usual. -/
def answer (g : Gateway σ) (r : Request) (traceId : String) (s : σ) : Response × σ :=
  g.respond .standard r traceId s

end Gateway

end TriageFlow.Web
