import TriageFlow.Fault

/-!
The structured result of an analysis: three known fields, and whatever else the model returned.
A known field that is absent, null or of the wrong type takes its default and leaves the other
fields alone.
-/

namespace TriageFlow

open Json (Value Fields)

/-- What an analysis says about a message. -/
structure Analysis where
  sentiment : Float
  isUrgent : Bool
  intent : String
  /-- The other fields the model returned. -/
  extra : Fields

namespace Analysis

/-- The analysis that stands for an unusable answer. -/
def neutral : Analysis := ⟨0, false, "", []⟩

/-- The analysis that stands for a gateway that failed. -/
def degraded : Analysis := ⟨0.5, false, "", []⟩

/-- The keys of the known fields. -/
def knownKeys : List String := ["sentiment", "is_urgent", "intent"]

/-- The analysis held by the fields of an object. -/
def ofFields (fields : Fields) : Analysis where
  sentiment := ((Fields.find? "sentiment" fields).bind Value.toFloat?).getD 0
  isUrgent := ((Fields.find? "is_urgent" fields).bind Value.toBool?).getD false
  intent := ((Fields.find? "intent" fields).bind Value.toString?).getD ""
  extra := fields.without knownKeys

/-- The analysis held by a value; only an object holds one. -/
def ofValue : Value → Except Fault Analysis
  | .object fields => .ok (ofFields fields)
  | v => .error (.malformedOutput ("expected a JSON object, got " ++ v.compact))

/-- The fields, the known ones first. -/
def members (a : Analysis) : List (String × Value) :=
  ("sentiment", .float a.sentiment) :: ("is_urgent", .bool a.isUrgent)
    :: ("intent", .string a.intent) :: a.extra

/-- The analysis as an object. -/
def toValue (a : Analysis) : Value := .ofMembers a.members

end Analysis

end TriageFlow
