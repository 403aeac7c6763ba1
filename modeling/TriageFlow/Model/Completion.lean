import TriageFlow.Engine.ModelOutput
import TriageFlow.Settings.Basic
import TriageFlow.Web.Transport

/-!
The client of the generative model. A prompt is posted as one turn of the user, and the answer is
the text of the first candidate; a structured answer is read from that text.
-/

namespace TriageFlow

open Json (Value)

/-- Where the service is found unless configured otherwise. -/
def defaultModelBase : String := "https://generativelanguage.googleapis.com"

/-- The address of an action of a model. -/
def modelAddress (base : Option String) (model action key : String) : Web.Address :=
  .ofText (Web.withoutSlashes (base.getD defaultModelBase) ++ "/v1beta/models/" ++ model ++ ":"
    ++ action ++ "?key=" ++ key)

/-- The providers that are reached with an API key in the address. -/
def isKeyedProvider (provider : String) : Bool := provider == "gemini" || provider == "google"

namespace ModelSettings

/-- What is posted for a prompt. -/
def requestBody (m : ModelSettings) (mode : Mode) (prompt : String) : Value :=
  let temperature := if m.temperature > 0 then [("temperature", ofFloat32 m.temperature)] else []
  let format := match mode with
    | .json => [("responseMimeType", Value.string "application/json")]
    | .text => []
  let limit := [("maxOutputTokens", Value.nat m.maxTokens)]
  let part := Value.ofMembers [("text", .string prompt)]
  .ofMembers
    [("contents", .array [.ofMembers [("role", .string "user"), ("parts", .array [part])]]),
      ("generationConfig", .ofMembers (limit ++ temperature ++ format))]

/-- The post for a prompt. -/
def post (m : ModelSettings) (key : String) (mode : Mode) (prompt : String) : Web.Post where
  address := modelAddress m.baseUrl m.modelId "generateContent" key
  authorization := none
  body := m.requestBody mode prompt

end ModelSettings

/-! ## Reading an answer -/

namespace Candidate

/-- The text of a part, empty unless given. -/
def ofPart? (v : Value) : Option String := do
  match ← Json.slots? ["text"] v with
  | [text] => Json.withDefault "" Value.toString? text
  | _ => none

/-- The joined text of a content's parts. -/
def ofContent? (v : Value) : Option String := do
  match ← Json.slotsFrom? 1 ["role", "parts"] v with
  | [role, parts] =>
    let _ ← Json.optional Value.toString? role
    return Text.join "" (← Json.withDefault [] (Value.toListOf? ofPart?) parts)
  | _ => none

/-- The text of a candidate, if it has content. -/
def ofValue? (v : Value) : Option (Option String) := do
  match ← Json.slotsFrom? 1 ["content"] v with
  | [content] => Json.optional ofContent? content
  | _ => none

/-- The texts of the candidates of an answer, in order. -/
def ofAnswer? (v : Value) : Option (List (Option String)) := do
  match ← Json.slots? ["candidates"] v with
  | [candidates] => Json.withDefault [] (Value.toListOf? ofValue?) candidates
  | _ => none

end Candidate

/-- The name of the service. -/
def modelService : String := "gemini"

/-- A failure of the service. -/
def modelFault (message : String) : Fault := .service modelService message

/-- The text in a service's answer. -/
def Web.Reply.completionText (r : Web.Reply) : Except Fault String :=
  if Web.isSuccess r.status then
    match (Value.ofText? r.content).bind Candidate.ofAnswer? with
    | none => .error (modelFault Web.undecodable)
    | some candidates =>
      match candidates.head?.join with
      | some text => .ok text
      | none => .error (modelFault "response had no candidates")
  else .error (modelFault ("HTTP " ++ Web.statusLine r.status ++ ": " ++ r.content))

/-- The completion in a text of the model. -/
def completionOf (mode : Mode) (text : String) : Except Fault Completion :=
  match mode with
  | .text => .ok (.text text)
  | .json => (readModelOutput text).map .json

namespace Generative

variable {σ : Type}

/-- The gateway of a model that is reached with a key. -/
def ofModel (transport : Web.Transport σ) (m : ModelSettings) (key : String) : Generative σ where
  name := modelService
  complete _ mode prompt s :=
    let post := m.post key mode prompt
    match transport post s with
    | (none, s) => (.settled (.error (modelFault post.unanswered)) 0, s)
    | (some reply, s) => (.settled (reply.completionText.bind (completionOf mode)) 0, s)

/-- The gateway of a configured model, with retries where they are configured. -/
def ofSettings (transport : Web.Transport σ) (m : ModelSettings) : Except Fault (Generative σ) :=
  if isKeyedProvider m.provider then
    match m.apiKey.filter fun k => !k.isEmpty with
    | none => .error (.config "Gemini: api_key is required")
    | some key =>
      let g := ofModel transport m key
      .ok (match m.retry with
        | some policy => g.retrying policy
        | none => g)
  else .error (.config ("Generative provider not supported: " ++ m.provider))

end Generative

end TriageFlow
