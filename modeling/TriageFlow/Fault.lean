import TriageFlow.Json.Writer
import TriageFlow.Context.Path

/-!
What can go wrong, by cause, and the one text of each cause. Where the text of a cause would
hold the words of a text format's reader, a fixed tag stands in their place.
-/

namespace TriageFlow

open Json (Value)

/-- Why a text is not a rule. -/
inductive RuleTextFault where
  | tooDeep (depth : Nat)
  | malformed (source : String)
  | badNumber (numeral : String)
deriving DecidableEq

/-- Why a rule has no value in a context. -/
inductive RuleFault where
  | invalidPath (path : Path)
  | undefinedParent (last : String) (parent : Path)
  | unordered (left right : Value)
  | noContainer (haystack needle : Value)

/-- Why a workflow definition is refused. -/
inductive DefinitionFault where
  | malformed
  | inFile (file : String)
  | emptyId
  | dottedId (id : String)
  | reservedId (id : String)
  | duplicateId (id : String)
deriving DecidableEq

/-- Why a file cannot be reached. -/
inductive FileFault where
  | absent
  | occupied
  | notDirectory
  | isDirectory
deriving DecidableEq

/-- Why a store of documents cannot be opened. -/
inductive StorageFault where
  /-- The directory of its file cannot be made. -/
  | directory (cause : FileFault)
  | cannotOpen (file : String)
  | notStore
deriving DecidableEq

/-- A failure. -/
inductive Fault where
  | unconfigured (collaborator : String)
  | service (service message : String)
  | timeout (service : String) (seconds : Nat)
  | malformedOutput (detail : String)
  | node (id message : String)
  | transform (name message : String)
  | unknownTransform (name : String)
  | ruleText (cause : RuleTextFault)
  | rule (cause : RuleFault)
  | stepLimit (limit : Nat)
  | definition (cause : DefinitionFault)
  | config (detail : String)
  | configNotFound (file : String)
  | storage (cause : StorageFault)
  | file (cause : FileFault)

/-- The greatest nesting of a rule. -/
def ruleNestingLimit : Nat := 64

def RuleTextFault.message : RuleTextFault → String
  | tooDeep depth =>
    "rule nests " ++ Text.ofNat depth ++ " levels deep, limit is " ++ Text.ofNat ruleNestingLimit
  | malformed source => "'" ++ source ++ "': <syntax>"
  | badNumber numeral => "invalid number '" ++ numeral ++ "'"

def RuleFault.message : RuleFault → String
  | invalidPath path => "invalid path '" ++ path.toText ++ "'"
  | undefinedParent last parent =>
    "cannot read '" ++ last ++ "' of undefined '" ++ parent.toText ++ "'"
  | unordered left right => "cannot order " ++ left.compact ++ " against " ++ right.compact
  | noContainer haystack needle => haystack.compact ++ " cannot contain " ++ needle.compact

def DefinitionFault.message : DefinitionFault → String
  | malformed => "<toml>"
  | inFile file => file ++ ": Invalid workflow definition: <toml>"
  | emptyId => "node id must not be empty"
  | dottedId id => "node id '" ++ id ++ "' must not contain '.'"
  | reservedId id => "node id '" ++ id ++ "' is reserved"
  | duplicateId id => "duplicate node id '" ++ id ++ "'"

def FileFault.message : FileFault → String
  | absent => "No such file or directory (os error 2)"
  | occupied => "File exists (os error 17)"
  | notDirectory => "Not a directory (os error 20)"
  | isDirectory => "Is a directory (os error 21)"

def StorageFault.message : StorageFault → String
  | directory cause => "Failed to create db directory: " ++ cause.message
  | cannotOpen file => "unable to open database file: \"" ++ file ++ "\""
  | notStore => "file is not a database"

/-- The text of a failure. -/
def Fault.message : Fault → String
  | unconfigured collaborator => "Collaborator not configured: " ++ collaborator
  | service name message => name ++ " request failed: " ++ message
  | timeout name seconds => name ++ " call timed out after " ++ Text.ofNat seconds ++ "s"
  | malformedOutput detail => "Structured output could not be parsed: " ++ detail
  | node id message => "Node execution failed: " ++ id ++ ": " ++ message
  | transform name message => "Transform " ++ name ++ " failed: " ++ message
  | unknownTransform name => "Transform not registered: " ++ name
  | ruleText cause => "Rule parse error: " ++ cause.message
  | rule cause => "Rule evaluation error: " ++ cause.message
  | stepLimit limit => "Run exceeded max steps (" ++ Text.ofNat limit ++ ")"
  | definition cause => "Invalid workflow definition: " ++ cause.message
  | config detail => "Config error: " ++ detail
  | configNotFound name => "Config file not found: " ++ name
  | storage cause => "Database error: " ++ cause.message
  | file cause => "I/O error: " ++ cause.message

end TriageFlow
