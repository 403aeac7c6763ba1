import TriageFlow.Settings.Basic
import TriageFlow.Toml.Reader

/-!
Settings from a file or from environment variables. References to variables in a file are
replaced before it is read. A path that starts with `~/` lies in the home directory.
-/

namespace TriageFlow

/-- The environment variables that are set. -/
abbrev Environment := List (String × String)

namespace Environment

/-- The value of a variable. -/
def get? (env : Environment) (name : String) : Option String := env.lookup name

/-! ## References in a text -/

/-- The name of a reference up to its closing brace, and whether there is one. -/
def nameAhead : List Char → List Char × Bool
  | [] => ([], false)
  | '}' :: _ => ([], true)
  | c :: cs =>
    let (name, closed) := nameAhead cs
    (c :: name, closed)

/-- A reference to a variable as it is written. -/
def reference (name : List Char) : List Char := '$' :: '{' :: (name ++ ['}'])

/-- What stands for a reference: the value of its variable, or the reference itself. -/
def resolve (env : Environment) (name : List Char) : List Char :=
  match env.get? (String.ofList name) with
  | some value => value.toList
  | none => reference name

/-- A text with its references replaced; `skip` characters of the last one are still to be passed
over. A reference without its closing brace runs to the end of the text. -/
def expandFrom (env : Environment) : Nat → List Char → List Char
  | _, [] => []
  | skip + 1, _ :: cs => expandFrom env skip cs
  | 0, c :: cs =>
    match c, cs with
    | '$', '{' :: rest =>
      let (name, closed) := nameAhead rest
      env.resolve name ++ expandFrom env (name.length + 1 + (if closed then 1 else 0)) cs
    | _, _ => c :: expandFrom env 0 cs

/-- A text with its references to variables replaced by their values. -/
def expand (env : Environment) (text : String) : String :=
  String.ofList (expandFrom env 0 text.toList)

/-! ## The home directory -/

/-- A path below a directory; an absolute path stands for itself. -/
def joinPath (directory below : List Char) : List Char :=
  match below with
  | '/' :: _ => below
  | _ =>
    if directory.isEmpty then below
    else if directory.getLast? = some '/' then directory ++ below
    else directory ++ '/' :: below

/-- A path with a leading `~/` replaced by the home directory, if there is one. -/
def expandHome (env : Environment) (path : String) : String :=
  match path.toList, env.get? "HOME" with
  | '~' :: '/' :: rest, some home => String.ofList (joinPath home.toList rest)
  | _, _ => path

end Environment

namespace Settings

/-- The settings in a TOML text, after its references to variables have been replaced. -/
def ofToml (env : Environment) (text : String) : Except Fault Settings :=
  match (Toml.ofText? (env.expand text)).bind ofValue? with
  | some s => .ok s
  | none => .error (.config "<toml>")

/-- The settings in environment variables alone: a key enables both models, and the address to
listen on, or only its number, and a workflow file may be given. -/
def ofEnvironment (env : Environment) : Settings :=
  let key := (env.get? "GEMINI_API_KEY").filter fun k => !k.isEmpty
  let bind :=
    match env.get? "WEFT_BIND", env.get? "PORT" with
    | some address, _ => address
    | none, some number => "0.0.0.0:" ++ number
    | none, none => GatewaySettings.standard.bind
  { standard with
    model := key.map fun k =>
      ⟨defaultProvider, (env.get? "WEFT_MODEL").getD ModelSettings.defaultModelId, some k, none,
        ModelSettings.defaultMaxTokens, 0, some .standard⟩
    embedding := key.map fun k =>
      ⟨defaultProvider, EmbeddingSettings.defaultModel, none, some k,
        EmbeddingSettings.defaultDimensions⟩
    gateway := { GatewaySettings.standard with bind := bind }
    engine := { EngineSettings.standard with workflowPath := env.get? "WEFT_WORKFLOW" } }

/-- Where the memory is stored. -/
def dbPath (s : Settings) (env : Environment) : String := env.expandHome s.memory.dbPath

end Settings

end TriageFlow
