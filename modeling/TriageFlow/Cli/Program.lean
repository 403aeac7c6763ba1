import TriageFlow.Cli.Arguments
import TriageFlow.Cli.Host
import TriageFlow.Engine.Run
import TriageFlow.Hook.Effect
import TriageFlow.Model.Embedding
import TriageFlow.Toml.Writer
import TriageFlow.Web.Gateway
import TriageFlow.Workflow.File
import TriageFlow.Workflow.Triage

/-!
The program. It takes its settings from a file or from the environment, and then checks the
workflow, shows the settings, runs the workflow on one message or listens for messages. A
collaborator that cannot be set up is left out, except that a store of documents which cannot be
opened is a failure.
-/

namespace TriageFlow.Cli

open Json (Value)

/-- What the program leaves behind. -/
structure Answer where
  exit : Nat
  output : String
  error : Option String
  /-- The files that hooks write. -/
  writes : List Hook.Write

namespace Answer

/-- The answer of a command that succeeds. -/
def success (output : String) : Answer := ⟨0, output, none, []⟩

/-- The answer of a command that fails. -/
def failure (message : String) : Answer := ⟨1, "", some ("Error: " ++ message), []⟩

/-- The answer to arguments that are not usable. -/
def usage : Answer := ⟨2, "", none, []⟩

end Answer

/-! ## Settings -/

/-- The variables that are always looked at. -/
def usualVariables : List String :=
  ["HOME", "GEMINI_API_KEY", "WEFT_MODEL", "WEFT_BIND", "PORT", "WEFT_WORKFLOW", "PATH"]

/-- The names that a text refers to. -/
def references : List Char → List String
  | [] => []
  | '$' :: '{' :: cs => String.ofList (Environment.nameAhead cs).1 :: references cs
  | _ :: cs => references cs

/-- The settings file in the home directory. -/
def homeSettingsFile : String := "~/.weft/config.toml"

section

variable {m : Type → Type} [Monad m]

/-- The variables of some names that are set. -/
def Host.environment (host : Host m) (names : List String) : m Environment := do
  let values ← names.mapM fun name => do return (← host.valueOf name).map (Prod.mk name)
  return values.filterMap id

/-- The settings in a file. -/
def Host.settingsIn (host : Host m) (path : String) (state : FileState) :
    m (Except Fault Settings) := do
  match state.text with
  | .ok text =>
    let env ← host.environment (usualVariables ++ references text.toList)
    return Settings.ofToml env text
  | .error _ => return .error (.configNotFound path)

/-- Whether something stands at a path. -/
def FileState.isThere : FileState → Bool
  | file _ => true
  | directory => true
  | _ => false

/-- The settings: in the given file, else in the one of the home directory, else in the
environment. -/
def Host.settings (host : Host m) (env : Environment) (path : String) :
    m (Except Fault Settings) := do
  let state ← host.look path
  if state.isThere then host.settingsIn path state
  else
    let home := env.expandHome homeSettingsFile
    let state ← host.look home
    if state.isThere then host.settingsIn home state
    else return .ok (.ofEnvironment env)

/-- The workflow: in the configured file, else the built-in one. -/
def Host.definition (host : Host m) (env : Environment) (s : Settings) :
    m (Except Fault Definition) := do
  match s.engine.workflowPath with
  | none => return .ok .supportTriage
  | some path =>
    let path := env.expandHome path
    match (← host.look path).text with
    | .ok text => return Definition.ofFile path text
    | .error cause => return .error (.file cause)

/-! ## Collaborators -/

/-- The generative gateway, if it is configured well. -/
def generativeOf (s : Settings) : Option (Generative Store) :=
  s.model.bind fun model =>
    match Generative.ofSettings Web.Transport.unreachable model with
    | .ok g => some g
    | .error _ => none

/-- The client of the embedding model, if memory is used and it is configured well. -/
def embeddingOf (s : Settings) : Option EmbeddingClient :=
  if s.memoryConfigured then
    s.embedding.bind fun e =>
      match EmbeddingClient.ofSettings e with
      | .ok c => some c
      | .error _ => none
  else none

/-- The memory over the store at the configured place, if it is used. -/
def Host.memory (host : Host m) (env : Environment) (s : Settings) :
    m (Except Fault (Option (Memory Store))) := do
  match embeddingOf s with
  | none => return .ok none
  | some client =>
    let path := s.dbPath env
    let directory ← (directoryOf? path).mapM host.look
    match storageFault? path directory (← host.look path) with
    | some cause => return .error (.storage cause)
    | none =>
      let embed : Embedder := fun text => (client.embed Web.Transport.unreachable text ()).1
      return .ok (some (.vector embed s.memory.matchThreshold s.memory.matchCount))

/-- The engine of the configured workflow. The time is asked for once, when the engine is made. -/
def Host.engine (host : Host m) (env : Environment) (s : Settings) :
    m (Except Fault (Engine Store)) := do
  match ← host.definition env s with
  | .error e => return .error e
  | .ok definition =>
    match ← host.memory env s with
    | .error e => return .error e
    | .ok memory =>
      let now ← host.now
      let engine : Engine Store :=
        { definition := definition
          collaborators := ⟨generativeOf s, memory, some fun _ store => store⟩
          transforms := .builtIn (.standing now)
          replies := s.replies
          maxSteps := s.engine.maxSteps
          timeout := 1000 * s.engine.gatewayTimeoutSecs
          now := .standing now }
      return engine.checked

/-! ## Commands -/

/-- Checks the workflow. -/
def Host.check (host : Host m) (env : Environment) (s : Settings) : m Answer := do
  match ← host.definition env s with
  | .error e => return .failure e.message
  | .ok d =>
    match d.check (Transforms.builtIn (.standing (← host.now))).contains with
    | .error e => return .failure e.message
    | .ok warnings =>
      let head := "Workflow '" ++ d.name ++ "': " ++ Text.ofNat d.nodes.length ++ " nodes, "
        ++ Text.ofNat warnings.length ++ " warning(s)\n"
      let rows := warnings.map fun w => "  warning: " ++ w.message ++ "\n"
      return .success (head ++ String.join rows)

/-- The settings as they are shown. -/
def settingsText (s : Settings) : String :=
  let real (x : Float32) : Value := .float x.toFloat
  String.ofList (Toml.write ((s.document real).toFields?.getD []))

/-- The inbound record to run on. -/
def Host.inbound (host : Host m) (json : Option String) (message : List String) :
    m (Except String Value) := do
  match json with
  | some text =>
    match Value.ofText? text with
    | some v => return .ok v
    | none => return .error "<json>"
  | none =>
    let words := Text.join " " message
    let text ← if words.isEmpty then host.standardInput else pure words
    return .ok (.ofMembers [("message", .string (Text.trimmed text))])

/-- What is shown of a run. -/
def runText (s : Settings) (report : Bool) (r : Run) : String :=
  if report then r.report.indented
  else
    (Value.ofMembers [("success", .bool (r.status == .completed)),
      ("response", .string (r.reply s.replies)), ("trace_id", .string r.context.traceId)]).indented

/-- What the hooks of a run's actions write, where there is a shell. -/
def hookWrites (env : Environment) (s : Settings) (r : Run) : List Hook.Write :=
  if (env.get? "PATH").any Hook.findsShell then
    r.calls.flatMap fun
      | .submit request => Hook.submit s.actions env request
      | _ => []
  else []

/-- Runs the workflow once. -/
def Host.run (host : Host m) (env : Environment) (s : Settings) (json : Option String)
    (report : Bool) (message : List String) : m Answer := do
  match ← host.inbound json message with
  | .error text => return .failure text
  | .ok input =>
    match ← host.engine env s with
    | .error e => return .failure e.message
    | .ok engine =>
      let (r, _) := engine.run input (host.traceId (← host.chance)) .empty
      return { Answer.success (runText s report r ++ "\n") with writes := hookWrites env s r }

/-- Why an address cannot be listened on, as far as its text tells. -/
def addressFault? (address : String) : Option String :=
  let cs := address.toList
  let number := (cs.reverse.takeWhile fun c => c ≠ ':').reverse
  let digits := match number with
    | '+' :: ds => ds
    | ds => ds
  if number.length = cs.length then some "invalid socket address"
  else
    match Text.toNat? digits with
    | some n => if n < Nat.pow 2 16 then none else some "invalid port value"
    | none => some "invalid port value"

/-- Listens for messages. -/
def Host.serve (host : Host m) (env : Environment) (s : Settings) : m Answer := do
  match ← host.engine env s with
  | .error e => return .failure e.message
  | .ok _ =>
    match addressFault? s.gateway.bind with
    | some text => return .failure text
    | none => return .failure (← host.listen s.gateway.bind)

/-- Carries out an invocation. -/
def Host.invoke (host : Host m) (i : Invocation) : m Answer := do
  let env ← host.environment usualVariables
  match ← host.settings env i.settings with
  | .error e => return .failure e.message
  | .ok found =>
    let workflow := i.workflow.or found.engine.workflowPath
    let s := { found with engine := { found.engine with workflowPath := workflow } }
    match i.command with
    | .config => return .success (settingsText s ++ "\n")
    | .check => host.check env s
    | .run json report message => host.run env s json report message
    | .serve => host.serve env s

/-- Does what the arguments ask for. -/
def Host.execute (host : Host m) (args : List String) : m Answer :=
  match Request.ofArguments args with
  | none => return .usage
  | some .help => return .success ""
  | some .version => return .success ("weft " ++ Web.version ++ "\n")
  | some (.invoke i) => host.invoke i

end

end TriageFlow.Cli
