import TriageFlow.Text.Split

/-!
Media types such as `application/vnd.api+json; charset=utf-8`: a type, a subtype, perhaps a suffix
after the last plus sign, and parameters. Type, subtype and suffix are compared in lower case.
-/

namespace TriageFlow.Web

/-- A character of a token. -/
def isTokenChar (c : Char) : Bool := c.isAlphanum || "!#$%&'*+-.^_|~\x60".toList.contains c

/-- A character that may stand between quotes. -/
def isQuotable (c : Char) : Bool := 0x20 ≤ c.toNat && c.toNat != 0x7F

/-- A media type without its parameters. -/
structure MediaType where
  kind : List Char
  subtype : List Char
  suffix : Option (List Char)

namespace MediaType

/-- The rest of a quoted value after its closing quote. The value has a first character, which may
be a quote itself. -/
def afterQuoted? : List Char → Option (List Char)
  | [] => none
  | first :: cs =>
    let others := cs.takeWhile fun c => c != '"'
    if (first :: others).all isQuotable && others.length < cs.length then
      some (cs.drop (others.length + 1))
    else none

/-- The rest of a text after the end of a parameter, which is a semicolon or the end of the text. -/
def afterEnd? : List Char → Option (List Char)
  | [] => some []
  | ';' :: rest => some rest
  | _ => none

/-- The rest of a text after the value of a parameter and the end of that. Blanks may follow a
quoted value; a value without quotes is empty at the end of the text only. -/
def afterValue? : List Char → Option (List Char)
  | '"' :: cs => (afterQuoted? cs).bind fun rest => afterEnd? (rest.dropWhile fun c => c == ' ')
  | cs =>
    let value := cs.takeWhile isTokenChar
    if value.isEmpty && !cs.isEmpty then none else afterEnd? (cs.drop value.length)

/-- Whether a text is a list of parameters with semicolons between them; at most `fuel` of them. -/
def areParameters (fuel : Nat) (text : List Char) : Bool :=
  match fuel, text.dropWhile fun c => c == ' ' with
  | _, [] => true
  | 0, _ => false
  | fuel + 1, cs =>
    let name := cs.takeWhile isTokenChar
    match cs.drop name.length with
    | '=' :: value => !name.isEmpty && (afterValue? value).any (areParameters fuel)
    | _ => false

/-- A subtype cut at its last plus sign; one that it starts with does not count. -/
def cutSuffix (cs : List Char) : List Char × Option (List Char) :=
  let suffix := (cs.tail.reverse.takeWhile fun c => c ≠ '+').reverse
  if suffix.length = cs.tail.length then (cs, none)
  else (cs.take (cs.length - suffix.length - 1), some suffix)

/-- The media type that a text names. Its subtype is empty at the end of the text only. -/
def ofText? (text : String) : Option MediaType :=
  let cs := text.toList.map Char.toLower
  let kind := cs.takeWhile isTokenChar
  match cs.drop kind.length with
  | '/' :: rest =>
    let full := rest.takeWhile isTokenChar
    let parameters := rest.drop full.length
    let (subtype, suffix) := cutSuffix full
    let found : Option MediaType := if kind.isEmpty then none else some ⟨kind, subtype, suffix⟩
    match parameters with
    | [] => found
    | ';' :: cs => if !full.isEmpty && areParameters cs.length cs then found else none
    | _ => none
  | _ => none

/-- Whether a media type is that of JSON text. -/
def isJson (m : MediaType) : Bool :=
  m.kind == "application".toList && (m.subtype == "json".toList || m.suffix == some "json".toList)

example : (ofText? "Application/vnd.api+json; v=\"1;2\" ; a=b").any isJson = true := by
  decide +kernel
example : (ofText? "application/+json").any isJson = false := by decide +kernel

end MediaType

end TriageFlow.Web
