import TriageFlow.Settings.Environment

/-!
Shell scripts of the kind that hooks are written in: simple commands with a redirection of their
output, one after another or depending on how the one before has ended. Words are quoted as in the
shell and refer to variables; pipelines, substitutions and control structures are not part of it.
-/

namespace TriageFlow.Hook

/-- A piece of a word. -/
inductive Piece where
  | literal (text : List Char)
  /-- The value of a variable; inside quotes it is not cut at blanks. -/
  | variable (name : List Char) (quoted : Bool)

/-- A word. -/
abbrev Word := List Piece

/-- When a command is run. -/
inductive Link where
  | always
  | onSuccess
  | onFailure
deriving DecidableEq

/-- A token of a script. -/
inductive Token where
  | word (w : Word)
  /-- The mark of a redirection; the output is appended, or it replaces the file. -/
  | redirect (append : Bool)
  | link (l : Link)

/-- Where a character stands. -/
inductive Quoting where
  | plain
  | single
  | double
deriving DecidableEq

/-- A character of a variable's name. -/
def isNameChar (c : Char) : Bool := c.isAlphanum || c == '_'

/-- The variable whose name follows a dollar sign, and the number of characters it takes. -/
def variableAhead? (cs : List Char) : Option (List Char × Nat) :=
  match cs with
  | '{' :: rest =>
    let name := rest.takeWhile isNameChar
    if rest[name.length]? = some '}' ∧ !name.isEmpty then some (name, name.length + 2) else none
  | _ =>
    let name := cs.takeWhile isNameChar
    if name.isEmpty then none else some (name, name.length)

/-- The token of a word, if one has been started. -/
def finished : Option Word → List Token
  | some w => [.word w]
  | none => []

/-- A word with one piece more. -/
def extended (word : Option Word) (piece : Piece) : Option Word := some (word.getD [] ++ [piece])

/-- The tokens of a text after a started word; `skip` characters have been read ahead. There are
none when a quotation is not closed. -/
def tokensFrom : (skip : Nat) → Quoting → Option Word → List Char → Option (List Token)
  | _, .plain, word, [] => some (finished word)
  | _, _, _, [] => none
  | skip + 1, quoting, word, _ :: cs => tokensFrom skip quoting word cs
  | 0, .single, word, c :: cs =>
    if c = '\'' then tokensFrom 0 .plain word cs
    else tokensFrom 0 .single (extended word (.literal [c])) cs
  | 0, .double, word, c :: cs =>
    match c, variableAhead? cs, cs.head? with
    | '"', _, _ => tokensFrom 0 .plain word cs
    | '$', some (name, length), _ =>
      tokensFrom length .double (extended word (.variable name true)) cs
    | '\\', _, some d =>
      if "\"\\$\x60".toList.contains d then
        tokensFrom 1 .double (extended word (.literal [d])) cs
      else tokensFrom 0 .double (extended word (.literal [c])) cs
    | _, _, _ => tokensFrom 0 .double (extended word (.literal [c])) cs
  | 0, .plain, word, c :: cs =>
    let token (t : Token) (length : Nat) : Option (List Token) :=
      (tokensFrom length .plain none cs).map fun rest => finished word ++ t :: rest
    match c, cs.head? with
    | '\'', _ => tokensFrom 0 .single (some (word.getD [])) cs
    | '"', _ => tokensFrom 0 .double (some (word.getD [])) cs
    | '\\', some d => tokensFrom 1 .plain (extended word (.literal [d])) cs
    | '>', some '>' => token (.redirect true) 1
    | '>', _ => token (.redirect false) 0
    | '&', some '&' => token (.link .onSuccess) 1
    | '|', some '|' => token (.link .onFailure) 1
    | ';', _ => token (.link .always) 0
    | '\n', _ => token (.link .always) 0
    | ' ', _ => (tokensFrom 0 .plain none cs).map fun rest => finished word ++ rest
    | '\t', _ => (tokensFrom 0 .plain none cs).map fun rest => finished word ++ rest
    | '$', _ =>
      match variableAhead? cs with
      | some (name, length) => tokensFrom length .plain (extended word (.variable name false)) cs
      | none => tokensFrom 0 .plain (extended word (.literal [c])) cs
    | _, _ => tokensFrom 0 .plain (extended word (.literal [c])) cs

/-- A command. -/
structure Command where
  /-- When it is run, by the end of the command before. -/
  link : Link
  words : List Word
  /-- Where its output goes, and whether it is appended. -/
  target : Option (Bool × Word)

/-- The commands that some tokens spell, after the start of one. -/
def commandsFrom (current : Command) : List Token → Option (List Command)
  | [] => some [current]
  | .word w :: rest => commandsFrom { current with words := current.words ++ [w] } rest
  | .redirect append :: .word w :: rest =>
    commandsFrom { current with target := some (append, w) } rest
  | .redirect _ :: _ => none
  | .link l :: rest => (commandsFrom ⟨l, [], none⟩ rest).map (current :: ·)

/-- The commands of a script, if it can be read. -/
def commands? (script : String) : Option (List Command) :=
  (tokensFrom 0 .plain none script.toList).bind (commandsFrom ⟨.always, [], none⟩)

end TriageFlow.Hook
