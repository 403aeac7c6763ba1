import TriageFlow.Json.Writer
import TriageFlow.Web.Percent
import TriageFlow.Web.Status

/-!
Requests to services on the web. How they are carried is a function, so that nothing here depends
on a network; a connection may end without an answer.
-/

namespace TriageFlow.Web

open Json (Value)

/-- The address of a service. -/
structure Address where
  /-- The scheme and the host. -/
  origin : String
  /-- The path and the query, percent-encoded. -/
  target : String
deriving DecidableEq

namespace Address

/-- A character that never stands in an address. -/
def isForeign (c : Char) : Bool := c.toNat ≤ 0x20 || 0x7F ≤ c.toNat || "\"<>".toList.contains c

/-- A character that is escaped in a path. -/
def isEscapedInPath (c : Char) : Bool := isForeign c || "\x60\x7b\x7d".toList.contains c

/-- A character that is escaped in a query. -/
def isEscapedInQuery (c : Char) : Bool := isForeign c || c == '\''

/-- A path and a query with their characters escaped; a fragment is left out. -/
def escapeTarget (cs : List Char) : List Char :=
  let cs := cs.takeWhile fun c => c ≠ '#'
  let path := cs.takeWhile fun c => c ≠ '?'
  let query := cs.drop path.length
  let path := percentEncode isEscapedInPath path
  (if path.head? = some '/' then path else '/' :: path) ++ percentEncode isEscapedInQuery query

/-- The number of characters of the scheme and the host. -/
def originLength (cs : List Char) : Nat :=
  let scheme := (cs.takeWhile fun c => c ≠ ':').length
  match Text.dropStart? [':', '/', '/'] (cs.drop scheme) with
  | some rest => scheme + 3 + (rest.takeWhile fun c => !(['/', '?', '#'].contains c)).length
  | none => 0

/-- The address that a text names. -/
def ofText (text : String) : Address :=
  let cs := text.toList
  let n := originLength cs
  ⟨String.ofList (cs.take n), String.ofList (escapeTarget (cs.drop n))⟩

/-- The whole address as a text. -/
def toText (a : Address) : String := a.origin ++ a.target

end Address

/-- A base address without slashes at its end. -/
def withoutSlashes (base : String) : String :=
  String.ofList (base.toList.reverse.dropWhile fun c => c = '/').reverse

/-- A posted JSON value. -/
structure Post where
  address : Address
  authorization : Option String
  body : Value

/-- What a service answers. -/
structure Reply where
  status : Nat
  body : String

/-- Whether answers with a code have no content, whatever is sent after them. -/
def hasNoContent (code : Nat) : Bool := code == 204 || code == 304

/-- The content of an answer. -/
def Reply.content (r : Reply) : String := if hasNoContent r.status then "" else r.body

/-- A way to reach services. -/
abbrev Transport (σ : Type) := Post → σ → Option Reply × σ

/-- The transport of a place that reaches nothing. -/
def Transport.unreachable {σ : Type} : Transport σ := fun _ s => (none, s)

/-- The text for a post that got no answer. -/
def Post.unanswered (p : Post) : String :=
  "error sending request for url (" ++ p.address.toText ++ ")"

/-- The text for an answer that does not have the expected form. -/
def undecodable : String := "error decoding response body"

end TriageFlow.Web
