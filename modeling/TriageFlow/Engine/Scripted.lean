import TriageFlow.Engine.Run

/-!
Collaborators that follow a script, for trying out workflows. A script lists how calls end, one
after another, and its last entry stands for all later calls. What a gateway was asked is kept.
-/

namespace TriageFlow

open Json (Value)

/-- How far the scripts have been followed. -/
structure ScriptState where
  jsonCalls : Nat
  textCalls : Nat
  recalls : Nat
  saves : Nat
  /-- What the generative gateway was asked, in order. -/
  prompts : List (Mode × String)

namespace ScriptState

/-- Nothing has been called. -/
def start : ScriptState := ⟨0, 0, 0, 0, []⟩

end ScriptState

/-- The entry of a script for the call of a given number. -/
def scripted? {α : Type} (script : List α) (call : Nat) : Option α :=
  (script[call]?).or script.getLast?

/-- What a script without entries does. -/
def unscripted {α : Type} : Ending α := .settled (.error (.service "scripted" "")) 0

/-- A generative gateway that follows one script for each mode. -/
def Generative.scripted (name : String) (json text : List (Ending Completion)) :
    Generative ScriptState where
  name := name
  complete _ mode prompt s :=
    let s := { s with prompts := s.prompts ++ [(mode, prompt)] }
    match mode with
    | .json => ((scripted? json s.jsonCalls).getD unscripted,
        { s with jsonCalls := s.jsonCalls + 1 })
    | .text => ((scripted? text s.textCalls).getD unscripted,
        { s with textCalls := s.textCalls + 1 })

/-- Documents of given contents. -/
def hitsOf (contents : List String) : List Hit := contents.map fun s => ⟨s, 0.9, .null⟩

/-- A memory that follows one script for recalling and one for saving; without entries every save
succeeds. -/
def Memory.scripted (retrieve : List (Ending (List Hit))) (save : List (Ending Unit)) :
    Memory ScriptState where
  retrieve _ s :=
    ((scripted? retrieve s.recalls).getD unscripted, { s with recalls := s.recalls + 1 })
  save _ _ s :=
    ((scripted? save s.saves).getD (.settled (.ok ()) 0), { s with saves := s.saves + 1 })

end TriageFlow
