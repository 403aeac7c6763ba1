import TriageFlow.Json.Reader
import TriageFlow.Memory.Store
import TriageFlow.Model.Completion

/-!
The clients of embedding models. There are two interfaces: one takes the key in the address and
answers with the values of one vector, the other takes it as a bearer token and answers with a
list of vectors, of which the first one counts.
-/

namespace TriageFlow

open Json (Value)

/-- How an embedding service is spoken to. -/
inductive EmbeddingInterface where
  | keyed (key : String)
  | listed (key : Option String)
deriving DecidableEq

/-- A client of an embedding model. -/
structure EmbeddingClient where
  interface : EmbeddingInterface
  base : Option String
  model : String
  /-- The length of the vectors. -/
  dimensions : Nat
deriving DecidableEq

namespace EmbeddingClient

/-- The client of a configured model, or why there is none. -/
def ofSettings (e : EmbeddingSettings) : Except String EmbeddingClient :=
  if isKeyedProvider e.provider then
    match e.apiKey.filter fun k => !k.isEmpty with
    | none => .error "Gemini embeddings: api_key is required"
    | some key => .ok ⟨.keyed key, e.baseUrl, e.model, e.dimensions⟩
  else .ok ⟨.listed e.apiKey, e.baseUrl, e.model, e.dimensions⟩

/-- Where services with the second interface are found unless configured otherwise. -/
def defaultListedBase : String := "https://api.openai.com/v1"

/-- A bearer token; blanks at its end are not carried. -/
def bearer (key : String) : String := String.ofList (Text.trimEnd ("Bearer " ++ key).toList)

/-- The post for a text. -/
def post (c : EmbeddingClient) (text : String) : Web.Post :=
  match c.interface with
  | .keyed key =>
    let part := Value.ofMembers [("text", .string text)]
    { address := modelAddress c.base c.model "embedContent" key
      authorization := none
      body := .ofMembers [("content", .ofMembers [("parts", .array [part])])] }
  | .listed key =>
    { address := .ofText (Web.withoutSlashes (c.base.getD defaultListedBase) ++ "/embeddings")
      authorization := key.map bearer
      body := .ofMembers [("model", .string c.model), ("input", .array [.string text])] }

/-! ## Reading an answer -/

/-- The vector under a key of an object. -/
def vectorUnder? (key : String) (v : Value) : Option Vector32 := do
  match ← Json.slots? [key] v with
  | [vector] => Json.required (Value.toListOf? Value.toFloat32?) vector
  | _ => none

/-- The vectors of an answer, in order. -/
def vectors? (interface : EmbeddingInterface) (v : Value) : Option (List Vector32) :=
  match interface with
  | .keyed _ => do
    match ← Json.slots? ["embedding"] v with
    | [embedding] => (Json.required (vectorUnder? "values") embedding).map ([·])
    | _ => none
  | .listed _ => do
    match ← Json.slots? ["data"] v with
    | [data] => Json.required (Value.toListOf? (vectorUnder? "embedding")) data
    | _ => none

/-- The vector in a service's answer. -/
def vectorOf (c : EmbeddingClient) (r : Web.Reply) : Except String Vector32 :=
  if Web.isSuccess r.status then
    match (Value.ofText? r.content).bind (vectors? c.interface) with
    | none => .error ("Failed to parse embedding response: " ++ Web.undecodable)
    | some [] => .error "Embedding response was empty"
    | some (v :: _) => .ok v
  else .error ("Embedding API error " ++ Web.statusLine r.status ++ ": " ++ r.content)

/-- The vector of a text. -/
def embed {σ : Type} (c : EmbeddingClient) (transport : Web.Transport σ) (text : String) (s : σ) :
    Except String Vector32 × σ :=
  let post := c.post text
  match transport post s with
  | (none, s) => (.error ("Embedding request failed: " ++ post.unanswered), s)
  | (some reply, s) => (c.vectorOf reply, s)

end EmbeddingClient

end TriageFlow
