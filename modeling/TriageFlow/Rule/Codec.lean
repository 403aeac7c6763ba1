import TriageFlow.Rule.Predicate
import TriageFlow.Json.Decode

/-!
The structured form of predicates. A predicate is an object whose field `op` names its kind and
whose other fields hold its parts; it may also be an array of the kind and the parts. A text is a
condition in the syntax of rule texts, anything else a condition in structured form.
-/

namespace TriageFlow

open Json (Value Fields)

namespace Comparison

/-- The name of a comparison. -/
def name : Comparison → String
  | equal => "equals"
  | notEqual => "not_equals"
  | greater => "greater_than"
  | greaterOrEqual => "greater_or_equal"
  | less => "less_than"
  | lessOrEqual => "less_or_equal"
  | contains => "contains"

/-- All comparisons, in the order of their kinds. -/
def every : List Comparison :=
  [equal, notEqual, greater, greaterOrEqual, less, lessOrEqual, contains]

end Comparison

namespace Predicate

mutual

/-- The structured form of a predicate. -/
def toValue : Predicate → Value
  | literal v => .ofMembers [("op", .string "literal"), ("value", v)]
  | field path => .ofMembers [("op", .string "field_path"), ("path", .string path.toText)]
  | compare op left right =>
    .ofMembers [("op", .string op.name), ("left", toValue left), ("right", toValue right)]
  | all operands => .ofMembers [("op", .string "and"), ("all", .array (toValues operands))]
  | any operands => .ofMembers [("op", .string "or"), ("any", .array (toValues operands))]
  | not operand => .ofMembers [("op", .string "not"), ("expr", toValue operand)]

/-- The structured forms of a list of predicates. -/
def toValues : List Predicate → List Value
  | [] => []
  | p :: rest => toValue p :: toValues rest

end

/-! ## Reading the structured form -/

/-- The kinds of predicates in their order. -/
inductive Kind where
  | literal
  | field
  | compare (op : Comparison)
  | all
  | any
  | not

/-- The name of a kind. -/
def Kind.name : Kind → String
  | literal => "literal"
  | field => "field_path"
  | compare op => op.name
  | all => "and"
  | any => "or"
  | not => "not"

/-- The names of the parts of a kind. -/
def Kind.parts : Kind → List String
  | literal => ["value"]
  | field => ["path"]
  | compare _ => ["left", "right"]
  | all => ["all"]
  | any => ["any"]
  | not => ["expr"]

/-- All kinds. -/
def kinds : List Kind :=
  .literal :: .field :: Comparison.every.map .compare ++ [.all, .any, .not]

/-- The kind that a value names, by its name or by its position. -/
def kind? : Value → Option Kind
  | .string s => kinds.find? fun k => k.name == s
  | .number n => n.toNat?.bind fun i => kinds[i]?
  | _ => none

/-- What a value reads as: a predicate, or a list of predicates, or neither. -/
structure Reading where
  value : Value
  one : Option Predicate
  many : Option (List Predicate)

/-- The predicate of a kind with given parts. -/
def assemble : Kind → List Reading → Option Predicate
  | .literal, [r] => some (literal r.value.finite)
  | .field, [r] => r.value.toString?.map fun s => field (.ofText s)
  | .compare op, [l, r] => do return compare op (← l.one) (← r.one)
  | .all, [r] => r.many.map all
  | .any, [r] => r.many.map any
  | .not, [r] => r.one.map not
  | _, _ => none

/-- The predicate that the fields of an object describe. -/
def ofReadFields (fields : List (String × Reading)) : Option Predicate := do
  let kind ← kind? (← fields.lookup "op").value
  assemble kind (← kind.parts.mapM fun part => fields.lookup part)

/-- The predicate that the items of an array describe. -/
def ofReadItems : List Reading → Option Predicate
  | [] => none
  | tag :: parts => do assemble (← kind? tag.value) parts

mutual

/-- What a value reads as. -/
def reading : Value → Reading
  | .object fields => ⟨.object fields, ofReadFields (readFields fields), none⟩
  | .array items =>
    let rs := readItems items
    ⟨.array items, ofReadItems rs, rs.mapM Reading.one⟩
  | v => ⟨v, none, none⟩

/-- What the items of an array read as. -/
def readItems : List Value → List Reading
  | [] => []
  | v :: rest => reading v :: readItems rest

/-- What the fields of an object read as. -/
def readFields : List (String × Value) → List (String × Reading)
  | [] => []
  | (k, v) :: rest => (k, reading v) :: readFields rest

end

/-- The predicate that a value describes. -/
def ofValue? (v : Value) : Option Predicate := (reading v).one

end Predicate

namespace Condition

/-- The written form of a condition. -/
def toValue : Condition → Value
  | text source => .string source
  | tree p => p.toValue

/-- The condition that a value describes. -/
def ofValue? : Value → Option Condition
  | .string source => some (text source)
  | v => (Predicate.ofValue? v).map tree

end Condition

namespace RouteRule

/-- The written form of a rule. -/
def toValue (r : RouteRule) : Value :=
  .ofMembers [("when", r.condition.toValue), ("target", .string r.target)]

/-- The rule that a value describes. -/
def ofValue? (v : Value) : Option RouteRule := do
  match ← Json.slots? ["when", "target"] v with
  | [condition, target] =>
    return ⟨← Json.required Condition.ofValue? condition, ← Json.required Value.toString? target⟩
  | _ => none

end RouteRule

end TriageFlow
