import TriageFlow.Json.Reader
import TriageFlow.Web.Form
import TriageFlow.Web.MediaType
import TriageFlow.Web.Request

/-!
What a server makes of the body of a request, before the program sees it. How it does that is the
server's matter: the gateway works with any extraction. The standard one reads at most two
mebibytes, and JSON text under a content type of JSON only.
-/

namespace TriageFlow.Web

open Json (Value)

/-- How bodies are read. One that cannot be read has a reason, which the sender is told. -/
structure Extraction where
  /-- The fields of a form; of two fields of one name the later one counts. -/
  form : Request → Except String (List (String × String))
  /-- The value of a JSON text. -/
  json : Request → Except String Value

namespace Extraction

/-- The greatest number of bytes of a body that is read. -/
def bodyLimit : Nat := 2 * 1024 * 1024

/-- The bytes of a body that is not too long. -/
def boundedBytes (r : Request) : Except String (List UInt8) :=
  if r.body.bytes.length ≤ bodyLimit then .ok r.body.bytes
  else .error "Failed to buffer the request body: length limit exceeded"

/-- The value of bytes that are a JSON text. What is wrong with other bytes is left out. -/
def jsonValue (bytes : List UInt8) : Except String Value :=
  match (Text.wholeUtf8? bytes).bind fun cs => Value.ofText? (String.ofList cs) with
  | some v => .ok v
  | none => .error "Failed to parse the request body as JSON: <json>"

/-- Whether the content type of a request is that of JSON text. -/
def declaresJson (r : Request) : Bool :=
  ((r.header? "content-type").bind MediaType.ofText?).any MediaType.isJson

/-- The standard extraction. -/
def standard : Extraction where
  form r := (boundedBytes r).map formPairs
  json r :=
    if declaresJson r then (boundedBytes r).bind jsonValue
    else .error "Expected request with \x60Content-Type: application/json\x60"

end Extraction

end TriageFlow.Web
