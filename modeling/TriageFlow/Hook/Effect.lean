import TriageFlow.Hook.Script
import TriageFlow.Engine.Collaborator

/-!
What hooks do. The scripts of an action are run one after another with the action in their
environment; what they do is the list of the files they write, in order. No failure of a script is
told to anyone.
-/

namespace TriageFlow.Hook

open Json (Value)

/-- A file that is written. -/
structure Write where
  file : String
  append : Bool
  text : String
deriving DecidableEq

/-! ## Words -/

/-- The value of a variable, empty if it is not set. -/
def valueOf (env : Environment) (name : List Char) : List Char :=
  ((env.get? (String.ofList name)).getD "").toList

/-- A character at which an unquoted value is cut. -/
def isCut (c : Char) : Bool := c == ' ' || c == '\t' || c == '\n'

/-- The nonempty pieces of a value between blanks. -/
def fieldsFrom (field : List Char) : List Char → List (List Char)
  | [] => if field.isEmpty then [] else [field]
  | c :: cs =>
    if isCut c then (if field.isEmpty then fieldsFrom [] cs else field :: fieldsFrom [] cs)
    else fieldsFrom (field ++ [c]) cs

/-- The texts that a word expands to, after a started one; an unquoted variable may start new
ones, and may leave none. -/
def expandFrom (env : Environment) (started : Option (List Char)) : Word → List String
  | [] => (started.map String.ofList).toList
  | .literal text :: rest => expandFrom env (some (started.getD [] ++ text)) rest
  | .variable name true :: rest =>
    expandFrom env (some (started.getD [] ++ valueOf env name)) rest
  | .variable name false :: rest =>
    let value := valueOf env name
    let cutAtStart := value.head?.any isCut && started.isSome
    let cutAtEnd := value.getLast?.any isCut
    let fields := fieldsFrom [] value
    let before := if cutAtStart then (started.map String.ofList).toList else []
    let open? := if cutAtStart then none else started
    match fields with
    | [] => before ++ expandFrom env open? rest
    | first :: others =>
      let all := (open?.getD [] ++ first) :: others
      if cutAtEnd then before ++ all.map String.ofList ++ expandFrom env none rest
      else
        before ++ all.dropLast.map String.ofList ++ expandFrom env (some (all.getLastD [])) rest

/-- The texts that a word expands to. A word that is there but empty is an empty text. -/
def expand (env : Environment) (w : Word) : List String :=
  if w.isEmpty then [""] else expandFrom env none w

/-- A word as one text. -/
def expandWhole (env : Environment) (w : Word) : String :=
  String.join (w.map fun
    | .literal text => String.ofList text
    | .variable name _ => String.ofList (valueOf env name))

/-! ## Commands -/

/-- The character that a letter behind a backslash stands for. -/
def escaped? : Char → Option Char
  | 'a' => some '\x07'
  | 'b' => some '\x08'
  | 't' => some '\t'
  | 'n' => some '\n'
  | 'v' => some '\x0b'
  | 'f' => some '\x0c'
  | 'r' => some '\r'
  | '\\' => some '\\'
  | _ => none

/-- A text with each backslash and the letter behind it replaced by the character they stand
for. -/
def unescape : List Char → List Char
  | '\\' :: c :: cs =>
    match escaped? c with
    | some d => d :: unescape cs
    | none => '\\' :: c :: unescape cs
  | c :: cs => c :: unescape cs
  | [] => []

/-- What `echo` writes before it ends the line. -/
def echoed (args : List String) : String :=
  String.ofList (unescape (Text.join " " args).toList)

/-- One pass over a format: its text, and the arguments left over. -/
def formatOnce : List Char → List String → List Char × List String
  | '%' :: '%' :: cs, args =>
    let (text, args) := formatOnce cs args
    ('%' :: text, args)
  | '%' :: _ :: cs, args =>
    let (text, rest) := formatOnce cs args.tail
    ((args.headD "").toList ++ text, rest)
  | '\\' :: c :: cs, args =>
    let (text, args) := formatOnce cs args
    match escaped? c with
    | some d => (d :: text, args)
    | none => ('\\' :: c :: text, args)
  | c :: cs, args =>
    let (text, args) := formatOnce cs args
    (c :: text, args)
  | [], args => ([], args)

/-- A format filled with arguments; it is used again as long as arguments are left over and it
takes some, at most `fuel` times. -/
def format (fuel : Nat) (cs : List Char) (args : List String) : List Char :=
  match fuel with
  | 0 => []
  | fuel + 1 =>
    let (text, rest) := formatOnce cs args
    if rest.isEmpty ∨ rest.length = args.length then text else text ++ format fuel cs rest

/-- How a command ends. -/
structure Result where
  output : String
  succeeded : Bool
  /-- Whether the script ends with it. -/
  ends : Bool

/-- Runs a command by name; an unknown one fails. -/
def call (name : String) (args : List String) : Result :=
  match name with
  | "printf" =>
    match args with
    | [] => ⟨"", false, false⟩
    | f :: rest => ⟨String.ofList (format (rest.length + 1) f.toList rest), true, false⟩
  | "echo" =>
    match args with
    | "-n" :: rest => ⟨echoed rest, true, false⟩
    | _ => ⟨echoed args ++ "\n", true, false⟩
  | "false" => ⟨"", false, false⟩
  | "true" => ⟨"", true, false⟩
  | ":" => ⟨"", true, false⟩
  | "exit" => ⟨"", args.headD "0" == "0", true⟩
  | _ => ⟨"", false, false⟩

/-- Whether a command is run after one that has ended so. -/
def Link.applies : Link → (succeeded : Bool) → Bool
  | always, _ => true
  | onSuccess, b => b
  | onFailure, b => !b

/-- What some commands write, after one that has ended so. -/
def runCommands (env : Environment) (succeeded : Bool) : List Command → List Write
  | [] => []
  | c :: rest =>
    if c.link.applies succeeded then
      let result : Result := match c.words.flatMap (expand env) with
        | [] => ⟨"", true, false⟩
        | name :: args => call name args
      let writes : List Write := match c.target with
        | some (append, w) => [⟨expandWhole env w, append, result.output⟩]
        | none => []
      if result.ends then writes else writes ++ runCommands env result.succeeded rest
    else runCommands env succeeded rest

/-- Whether a shell can be handed a script and an environment: neither holds the character with
which their texts end. -/
def canStart (env : Environment) (script : String) : Bool :=
  (script :: env.map Prod.snd).all fun text => !text.toList.contains '\x00'

/-- What a script writes; one that cannot be started or read does nothing. -/
def runScript (env : Environment) (script : String) : List Write :=
  match commands? script with
  | some commands => if canStart env script then runCommands env true commands else []
  | none => []

/-! ## Hooks -/

/-- The scripts of each action. -/
abbrev Hooks := List (String × List String)

/-- The environment of an action's scripts. -/
def environmentOf (env : Environment) (r : ActionRequest) : Environment :=
  let payload := match r.payload with
    | .string s => s
    | v => v.compact
  [("WEFT_ACTION", r.action), ("WEFT_TRACE_ID", r.traceId), ("WEFT_PAYLOAD", payload)] ++ env

/-- What the hooks of a request write, one script after another. -/
def submit (hooks : Hooks) (env : Environment) (r : ActionRequest) : List Write :=
  ((hooks.lookup r.action).getD []).flatMap (runScript (environmentOf env r))

/-- The directories in which a shell is found. -/
def shellDirectories : List String := ["/bin", "/usr/bin"]

/-- Whether a search path leads to a shell. -/
def findsShell (searchPath : String) : Bool :=
  let (first, others) := Text.split ':' searchPath.toList
  (first :: others).any fun directory =>
    shellDirectories.contains (String.ofList (directory.reverse.dropWhile fun c => c = '/').reverse)

/-- The content of a file after some writes. -/
def contentAfter (file : String) (before : Option String) (writes : List Write) : Option String :=
  writes.foldl (fun content w =>
    if w.file = file then some (if w.append then content.getD "" ++ w.text else w.text)
    else content) before

end TriageFlow.Hook
