import TriageFlow.Settings.Environment
import TriageFlow.Instant

/-!
The place where the program runs: its variables, files, input, clock and chance. The program only
asks; a host made of values answers with what it holds, so that everything else stays a function.
-/

namespace TriageFlow.Cli

/-- What stands at a path. -/
inductive FileState where
  | file (text : String)
  | directory
  | absent
  /-- Something on the way is not a directory. -/
  | blocked
deriving DecidableEq

/-- The text of a file, or why it cannot be read. -/
def FileState.text : FileState → Except FileFault String
  | file text => .ok text
  | directory => .error .isDirectory
  | absent => .error .absent
  | blocked => .error .notDirectory

/-- A host. -/
structure Host (m : Type → Type) where
  valueOf : String → m (Option String)
  look : String → m FileState
  standardInput : m String
  /-- A number of 128 random bits. -/
  chance : m Nat
  /-- The trace id of a number of random bits. -/
  traceId : Nat → String
  now : m Instant
  /-- Listens on an address; gives the reason why it cannot. -/
  listen : String → m String

/-! ## Paths -/

/-- The directory of a path; a path of one segment has none. -/
def directoryOf? (path : String) : Option String :=
  let cs := (path.toList.reverse.dropWhile fun c => c = '/').reverse
  let above := (cs.reverse.dropWhile fun c => c ≠ '/').reverse
  if above.isEmpty then none
  else
    let directory := (above.reverse.dropWhile fun c => c = '/').reverse
    some (String.ofList (if directory.isEmpty then ['/'] else directory))

/-- Why no store of documents can be opened at a path, given what stands at it and at its
directory. A directory that is absent is made. -/
def storageFault? (path : String) (directory : Option FileState) (state : FileState) :
    Option StorageFault :=
  match directory, state with
  | some (.file _), _ => some (.directory .occupied)
  | some .blocked, _ => some (.directory .notDirectory)
  | _, .directory => some (.cannotOpen path)
  | _, .blocked => some (.cannotOpen path)
  | _, .file text => if text.isEmpty then none else some .notStore
  | _, .absent => none

/-! ## A host made of values -/

/-- Files by the segments of their paths. -/
structure Disk where
  /-- The directory that paths start from. -/
  home : String
  files : List (List String × String)

namespace Disk

/-- The segments of a path, without those that name nothing. -/
def segments (path : String) : List String :=
  let (first, others) := Text.split '/' path.toList
  (first :: others).foldl (fun before segment =>
    let name := String.ofList segment
    if name = "" ∨ name = "." then before
    else if name = ".." then before.dropLast
    else before ++ [name]) []

/-- The place of a path, from the root on. A path that starts with the name of the home directory
starts there. -/
def place (d : Disk) (path : String) : List String :=
  if path.toList.head? = some '/' ∨ d.home.toList.isPrefixOf path.toList then segments path
  else segments (d.home ++ "/" ++ path)

/-- A disk with a file more. -/
def write (d : Disk) (path text : String) : Disk :=
  { d with files := (d.place path, text) :: d.files }

/-- What stands at a path. -/
def look (d : Disk) (path : String) : FileState :=
  let place := d.place path
  if d.files.any fun f => f.1.isPrefixOf place && f.1.length < place.length then .blocked
  else
    match d.files.lookup place with
    | some text => if path.toList.getLast? = some '/' then .blocked else .file text
    | none =>
      if place.length ≤ 1 ∨ (d.files.any fun f => place.isPrefixOf f.1) then .directory else .absent

end Disk

/-- A host made of values, with a fixed trace id. -/
def Host.ofValues (d : Disk) (env : Environment) (input traceId : String) (now : Instant) :
    Host Id where
  valueOf := env.get?
  look := d.look
  standardInput := input
  chance := 0
  traceId := fun _ => traceId
  now := now
  listen := fun _ => "failed to lookup address information: Temporary failure in name resolution"

end TriageFlow.Cli
