import TriageFlow.Text.Split

/-!
The arguments of the command line: options, then a command with options of its own. An option's
value follows it, or is attached to it; an option is given at most once on each level, and on
the level of a command the workflow may be given again and then counts. The words of a message end
the options.
-/

namespace TriageFlow.Cli

/-- What to do. -/
inductive Command where
  | serve
  | run (json : Option String) (report : Bool) (message : List String)
  | check
  | config
deriving DecidableEq

/-- The settings file, the workflow file and what to do. -/
structure Invocation where
  settings : String
  workflow : Option String
  command : Command
deriving DecidableEq

/-- What some arguments ask for. -/
inductive Request where
  | invoke (i : Invocation)
  | help
  | version
deriving DecidableEq

/-- The settings file unless given otherwise. -/
def defaultSettingsFile : String := "weft.toml"

/-! ## Options -/

/-- An option. -/
inductive Flag where
  | settings
  | workflow
  | json
  | report
  | help
  | version
deriving DecidableEq

namespace Flag

/-- The long name of an option. -/
def long : Flag → String
  | settings => "config"
  | workflow => "workflow"
  | json => "json"
  | report => "report"
  | help => "help"
  | version => "version"

/-- The letter of an option that has one. -/
def letter? : Flag → Option Char
  | settings => some 'c'
  | workflow => some 'w'
  | help => some 'h'
  | version => some 'V'
  | _ => none

/-- Whether an option has a value. -/
def takesValue : Flag → Bool
  | settings => true
  | workflow => true
  | json => true
  | _ => false

/-- Whether a value may be given to an option. The name of a file is not empty. -/
def admits : Flag → String → Bool
  | json, _ => true
  | _, value => !value.isEmpty

end Flag

/-- Where options stand: before the command, behind one, or behind the one that runs. -/
inductive Level where
  | top
  | plain
  | run
deriving DecidableEq

/-- The options of a level. -/
def Level.flags : Level → List Flag
  | top => [.settings, .workflow, .help, .version]
  | plain => [.workflow, .help]
  | run => [.workflow, .json, .report, .help]

/-- An option as it is written, and the value attached to it. -/
def flag? (level : Level) : List Char → Option (Flag × Option String)
  | '-' :: '-' :: cs =>
    let name := String.ofList (cs.takeWhile fun c => c ≠ '=')
    let value := match cs.dropWhile fun c => c ≠ '=' with
      | _ :: value => some (String.ofList value)
      | [] => none
    (level.flags.find? fun f => f.long == name).bind fun f =>
      if value.isSome && !f.takesValue then none else some (f, value)
  | '-' :: c :: cs =>
    let value := match cs with
      | [] => none
      | '=' :: value => some (String.ofList value)
      | value => some (String.ofList value)
    (level.flags.find? fun f => f.letter? == some c).map fun f => (f, value)
  | _ => none

/-- Whether an argument is written like an option. A single hyphen is not. -/
def looksLikeFlag (arg : String) : Bool :=
  match arg.toList with
  | '-' :: _ :: _ => true
  | _ => false

/-! ## Reading a level -/

/-- The options that are given on a level, with their values. -/
abbrev Given := List (Flag × String)

/-- Gives an option, unless it is there or the value is not for it. -/
def Given.put (given : Given) (f : Flag) (value : String) : Option Given :=
  if (given.lookup f).isSome || !f.admits value then none else some ((f, value) :: given)

/-- How the options of a level end. -/
inductive Ending where
  | finished (given : Given)
  /-- An argument that is no option. -/
  | word (given : Given) (first : String) (rest : List String)
  /-- The mark after which no options follow. -/
  | mark (given : Given) (rest : List String)
  | help
  | version

/-- The options of a level, up to what ends them. -/
def readLevel (level : Level) (given : Given) : List String → Option Ending
  | [] => some (.finished given)
  | arg :: rest =>
    if arg = "--" then some (.mark given rest)
    else if !looksLikeFlag arg then some (.word given arg rest)
    else
      match flag? level arg.toList with
      | none => none
      | some (.help, _) => some .help
      | some (.version, _) => some .version
      | some (.report, _) => (given.put .report "true").bind fun g => readLevel level g rest
      | some (f, some value) => (given.put f value).bind fun g => readLevel level g rest
      | some (f, none) =>
        match rest with
        | [] => none
        | value :: rest =>
          if looksLikeFlag value then none
          else (given.put f value).bind fun g => readLevel level g rest

/-- The invocation of a command with the options of both levels. -/
def invocation (top given : Given) (command : Command) : Request :=
  .invoke ⟨(top.lookup .settings).getD defaultSettingsFile,
    (given.lookup .workflow).or (top.lookup .workflow), command⟩

/-- A command without words of its own. -/
def readPlain (top : Given) (command : Command) (args : List String) : Option Request := do
  match ← readLevel .plain [] args with
  | .finished given => return invocation top given command
  | .mark given [] => return invocation top given command
  | .help => return .help
  | _ => none

/-- The command that runs a message. -/
def readRun (top : Given) (args : List String) : Option Request := do
  let command (given : Given) (message : List String) : Request :=
    invocation top given
      (.run (given.lookup .json) (given.lookup .report).isSome message)
  match ← readLevel .run [] args with
  | .finished given => return command given []
  | .word given first rest => return command given (first :: rest)
  | .mark given rest => return command given rest
  | .help => return .help
  | .version => none

/-- The names of the commands. -/
def commandNames : List String := ["serve", "run", "check", "config", "help"]

/-- The command of a name, with its arguments. -/
def readCommand (top : Given) (name : String) (args : List String) : Option Request :=
  match name with
  | "serve" => readPlain top .serve args
  | "check" => readPlain top .check args
  | "config" => readPlain top .config args
  | "run" => readRun top args
  | "help" =>
    match args with
    | [] => some .help
    | [topic] => if commandNames.contains topic then some .help else none
    | _ => none
  | _ => none

/-- What arguments ask for, unless they are not usable. Without a command the gateway is
started. -/
def Request.ofArguments (args : List String) : Option Request := do
  match ← readLevel .top [] args with
  | .finished top => return invocation top [] .serve
  | .mark top [] => return invocation top [] .serve
  | .mark _ _ => none
  | .word top name rest => readCommand top name rest
  | .help => return .help
  | .version => return .version

end TriageFlow.Cli
