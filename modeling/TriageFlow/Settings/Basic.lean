import TriageFlow.Engine.Retry
import TriageFlow.Engine.Execution
import TriageFlow.Decimal.Notation
import TriageFlow.Json.Decode

/-!
The settings of a deployment, in sections: the generative model, the embedding model, memory, the
engine, the web gateway, the reply texts and the shell commands of actions. Every section and
nearly every field has a default; a model section that is absent leaves its collaborator
unconfigured.
-/

namespace TriageFlow

open Json (Value Fields)

/-- The generative model. -/
structure ModelSettings where
  provider : String
  modelId : String
  apiKey : Option String
  baseUrl : Option String
  maxTokens : Nat
  temperature : Float32
  retry : Option RetryPolicy

/-- The embedding model. -/
structure EmbeddingSettings where
  provider : String
  model : String
  baseUrl : Option String
  apiKey : Option String
  dimensions : Nat

/-- The memory of earlier content. -/
structure MemorySettings where
  enabled : Bool
  dbPath : String
  /-- What a document must score above to be recalled. -/
  matchThreshold : Float32
  /-- The greatest number of documents recalled. -/
  matchCount : Nat

/-- The engine. -/
structure EngineSettings where
  gatewayTimeoutSecs : Nat
  maxSteps : Nat
  workflowPath : Option String

/-- The web gateway. -/
structure GatewaySettings where
  bind : String
  token : Option String

/-- The settings of a deployment. -/
structure Settings where
  model : Option ModelSettings
  embedding : Option EmbeddingSettings
  memory : MemorySettings
  engine : EngineSettings
  gateway : GatewaySettings
  replies : Replies
  /-- The shell commands of each action. -/
  actions : List (String × List String)

/-- A 32-bit float as a value, with its own shortest decimal. -/
def ofFloat32 (x : Float32) : Value :=
  if x.isFinite then .float (Decimal.widen x) else .null

/-! ## Retries -/

namespace RetryPolicy

/-- The policy that a value describes. -/
def ofValue? (v : Value) : Option RetryPolicy := do
  match ← Json.slots? ["max_retries", "initial_backoff_ms", "max_backoff_ms"] v with
  | [retries, initial, greatest] =>
    return ⟨← Json.withDefault standard.maxRetries Value.toNat32? retries,
      ← Json.withDefault standard.initialBackoff Value.toNat64? initial,
      ← Json.withDefault standard.maxBackoff Value.toNat64? greatest⟩
  | _ => none

/-- The written form of a policy. -/
def members (p : RetryPolicy) : List (String × Value) :=
  [("max_retries", .nat p.maxRetries), ("initial_backoff_ms", .nat p.initialBackoff),
    ("max_backoff_ms", .nat p.maxBackoff)]

end RetryPolicy

/-! ## The generative model -/

/-- The provider unless configured otherwise. -/
def defaultProvider : String := "gemini"

namespace ModelSettings

/-- The model unless configured otherwise. -/
def defaultModelId : String := "gemini-2.0-flash"

/-- The greatest length of an answer unless configured otherwise. -/
def defaultMaxTokens : Nat := 2048

/-- The settings that a value describes. -/
def ofValue? (v : Value) : Option ModelSettings := do
  let keys :=
    ["provider", "model_id", "api_key", "base_url", "max_tokens", "temperature", "retry"]
  match ← Json.slots? keys v with
  | [provider, modelId, apiKey, baseUrl, maxTokens, temperature, retry] =>
    return ⟨← Json.withDefault defaultProvider Value.toString? provider,
      ← Json.withDefault defaultModelId Value.toString? modelId,
      ← Json.optional Value.toString? apiKey,
      ← Json.optional Value.toString? baseUrl,
      ← Json.withDefault defaultMaxTokens Value.toNat32? maxTokens,
      ← Json.withDefault 0 Value.toFloat32? temperature,
      ← Json.optional RetryPolicy.ofValue? retry⟩
  | _ => none

/-- The written form, with a way to write the temperature. -/
def members (real : Float32 → Value) (m : ModelSettings) : List (String × Value) :=
  [("provider", .string m.provider), ("model_id", .string m.modelId),
    ("api_key", .ofOption m.apiKey), ("base_url", .ofOption m.baseUrl),
    ("max_tokens", .nat m.maxTokens), ("temperature", real m.temperature),
    ("retry", (m.retry.map fun p => .object p.members).getD .null)]

end ModelSettings

/-! ## The embedding model -/

namespace EmbeddingSettings

/-- The model unless configured otherwise. -/
def defaultModel : String := "text-embedding-004"

/-- The length of vectors unless configured otherwise. -/
def defaultDimensions : Nat := 768

/-- The settings that a value describes. -/
def ofValue? (v : Value) : Option EmbeddingSettings := do
  match ← Json.slots? ["provider", "model", "base_url", "api_key", "dimensions"] v with
  | [provider, model, baseUrl, apiKey, dimensions] =>
    return ⟨← Json.withDefault defaultProvider Value.toString? provider,
      ← Json.withDefault defaultModel Value.toString? model,
      ← Json.optional Value.toString? baseUrl,
      ← Json.optional Value.toString? apiKey,
      ← Json.withDefault defaultDimensions Value.toNat64? dimensions⟩
  | _ => none

/-- The written form. -/
def members (e : EmbeddingSettings) : List (String × Value) :=
  [("provider", .string e.provider), ("model", .string e.model),
    ("base_url", .ofOption e.baseUrl), ("api_key", .ofOption e.apiKey),
    ("dimensions", .nat e.dimensions)]

end EmbeddingSettings

/-! ## Memory, engine, gateway -/

namespace MemorySettings

/-- The settings unless configured otherwise. -/
def standard : MemorySettings := ⟨true, "~/.weft/memory.db", 0.5, 2⟩

/-- The settings that a value describes. -/
def ofValue? (v : Value) : Option MemorySettings := do
  match ← Json.slots? ["enabled", "db_path", "match_threshold", "match_count"] v with
  | [enabled, dbPath, threshold, count] =>
    return ⟨← Json.withDefault standard.enabled Value.toBool? enabled,
      ← Json.withDefault standard.dbPath Value.toString? dbPath,
      ← Json.withDefault standard.matchThreshold Value.toFloat32? threshold,
      ← Json.withDefault standard.matchCount Value.toNat64? count⟩
  | _ => none

/-- The written form, with a way to write the threshold. -/
def members (real : Float32 → Value) (m : MemorySettings) : List (String × Value) :=
  [("enabled", .bool m.enabled), ("db_path", .string m.dbPath),
    ("match_threshold", real m.matchThreshold), ("match_count", .nat m.matchCount)]

end MemorySettings

namespace EngineSettings

/-- The settings unless configured otherwise. -/
def standard : EngineSettings := ⟨30, 64, none⟩

/-- The settings that a value describes. -/
def ofValue? (v : Value) : Option EngineSettings := do
  match ← Json.slots? ["gateway_timeout_secs", "max_steps", "workflow_path"] v with
  | [timeout, steps, workflow] =>
    return ⟨← Json.withDefault standard.gatewayTimeoutSecs Value.toNat64? timeout,
      ← Json.withDefault standard.maxSteps Value.toNat64? steps,
      ← Json.optional Value.toString? workflow⟩
  | _ => none

/-- The written form. -/
def members (e : EngineSettings) : List (String × Value) :=
  [("gateway_timeout_secs", .nat e.gatewayTimeoutSecs), ("max_steps", .nat e.maxSteps),
    ("workflow_path", .ofOption e.workflowPath)]

end EngineSettings

namespace GatewaySettings

/-- The settings unless configured otherwise. -/
def standard : GatewaySettings := ⟨"127.0.0.1:3000", none⟩

/-- The settings that a value describes. -/
def ofValue? (v : Value) : Option GatewaySettings := do
  match ← Json.slots? ["bind", "token"] v with
  | [bind, token] =>
    return ⟨← Json.withDefault standard.bind Value.toString? bind,
      ← Json.optional Value.toString? token⟩
  | _ => none

/-- The written form. -/
def members (g : GatewaySettings) : List (String × Value) :=
  [("bind", .string g.bind), ("token", .ofOption g.token)]

end GatewaySettings

/-! ## Replies -/

namespace Replies

/-- The texts that a value describes. -/
def ofValue? (v : Value) : Option Replies := do
  let keys := ["not_configured", "generation_failed", "escalation", "received", "failure"]
  match ← Json.slots? keys v with
  | [notConfigured, generationFailed, escalation, received, failure] =>
    return ⟨← Json.withDefault standard.notConfigured Value.toString? notConfigured,
      ← Json.withDefault standard.generationFailed Value.toString? generationFailed,
      ← Json.withDefault standard.escalation Value.toString? escalation,
      ← Json.withDefault standard.received Value.toString? received,
      ← Json.withDefault standard.failure Value.toString? failure⟩
  | _ => none

/-- The written form. -/
def members (r : Replies) : List (String × Value) :=
  [("not_configured", .string r.notConfigured), ("generation_failed", .string r.generationFailed),
    ("escalation", .string r.escalation), ("received", .string r.received),
    ("failure", .string r.failure)]

end Replies

/-! ## All sections -/

namespace Settings

/-- The settings unless configured otherwise. -/
def standard : Settings where
  model := none
  embedding := none
  memory := .standard
  engine := .standard
  gateway := .standard
  replies := .standard
  actions := []

/-- The commands under action names. -/
def actionsOfValue? (v : Value) : Option (List (String × List String)) :=
  v.toMapOf? (Value.toListOf? Value.toString?)

/-- The settings that a value describes. -/
def ofValue? (v : Value) : Option Settings := do
  let keys := ["model", "embedding", "memory", "engine", "gateway", "replies", "actions"]
  match ← Json.slots? keys v with
  | [model, embedding, memory, engine, gateway, replies, actions] =>
    return ⟨← Json.optional ModelSettings.ofValue? model,
      ← Json.optional EmbeddingSettings.ofValue? embedding,
      ← Json.withDefault .standard MemorySettings.ofValue? memory,
      ← Json.withDefault .standard EngineSettings.ofValue? engine,
      ← Json.withDefault .standard GatewaySettings.ofValue? gateway,
      ← Json.withDefault .standard Replies.ofValue? replies,
      ← Json.withDefault [] actionsOfValue? actions⟩
  | _ => none

/-- The written form, with a way to write 32-bit floats. Sections stand in their order, and so do
the fields of each. -/
def document (real : Float32 → Value) (s : Settings) : Value :=
  .object [("model", (s.model.map fun m => .object (m.members real)).getD .null),
    ("embedding", (s.embedding.map fun e => .object e.members).getD .null),
    ("memory", .object (s.memory.members real)), ("engine", .object s.engine.members),
    ("gateway", .object s.gateway.members), ("replies", .object s.replies.members),
    ("actions", .object (s.actions.map fun a => (a.1, .array (a.2.map .string))))]

/-- Whether memory can be used: it is enabled and there is an embedding model. -/
def memoryConfigured (s : Settings) : Bool := s.memory.enabled && s.embedding.isSome

end Settings

end TriageFlow
