import TriageFlow.Cli.Program
import TriageFlow.Context.TraceId

/-!
The program on the machine it is started on. Nothing is decided here: what the program asks of
its host is answered, and what it leaves behind is written down.
-/

namespace TriageFlow.Cli

/-- What stands at a path of the file system. -/
def fileState (path : String) : IO FileState := do
  match ← (IO.FS.readFile path).toBaseIO with
  | .ok text => return .file text
  | .error (.noFileOrDirectory _ _ _) => return .absent
  | .error (.inappropriateType _ code _) => return if code == 20 then .blocked else .directory
  | .error _ => return .directory

/-- The second at which the machine was started, as the system's statistics tell it. -/
def startSecond? (statistics : String) : Option Nat :=
  let (first, others) := Text.split '\n' statistics.toList
  (first :: others).findSome? fun line =>
    (Text.dropStart? "btime ".toList line).bind Text.toNat?

/-- The time: when the machine was started and how long that is ago. -/
def currentTime : IO Instant := do
  let statistics ← (IO.FS.readFile "/proc/stat").toBaseIO
  let start := match statistics with
    | .ok text => (startSecond? text).getD 0
    | .error _ => 0
  return ⟨1000 * start + (← IO.monoMsNow)⟩

/-- The machine. It listens on no address, as there is no network here. -/
def machine : Host IO where
  valueOf name := IO.getEnv name
  look := fileState
  standardInput := do (← IO.getStdin).readToEnd
  chance := do
    let bytes ← IO.getRandomBytes 16
    return bytes.toList.foldl (fun n byte => 256 * n + byte.toNat) 0
  traceId := TraceId.minted
  now := currentTime
  listen _ := return "Function not implemented (os error 38)"

/-- Writes a file for a hook; that it cannot be written is no failure. -/
def carryOut (w : Hook.Write) : IO Unit := do
  let written : IO Unit :=
    if w.append then IO.FS.withFile w.file .append fun h => h.putStr w.text
    else IO.FS.writeFile w.file w.text
  let _ ← written.toBaseIO

end TriageFlow.Cli

open TriageFlow.Cli in
def main (args : List String) : IO UInt32 := do
  let answer ← machine.execute args
  (← IO.getStdout).putStr answer.output
  for w in answer.writes do
    carryOut w
  match answer.error with
  | some text => (← IO.getStderr).putStrLn text
  | none => pure ()
  return UInt32.ofNat answer.exit
