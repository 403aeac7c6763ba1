import TriageFlow.Rule.Reader
import TriageFlow.Context.Basic

/-!
The value of a predicate in a context. Operands are evaluated from left to right, a connective
stops at the operand that decides it, and the first fault is the fault of the whole. Numbers are
compared as 64-bit floats and strings by code points.
-/

namespace TriageFlow

open Json (Value Number Fields)

/-- False, null, zero, a number that is none, and the empty string do not hold; all else does. -/
def truthy : Value → Bool
  | .null => false
  | .bool b => b
  | .number n => n.toFloat != 0 && !n.toFloat.isNaN
  | .string s => !s.isEmpty
  | .array _ => true
  | .object _ => true

namespace Comparison

/-- Equality of values, where numbers are compared by size. -/
def looselyEqual : Value → Value → Bool
  | .number a, .number b => a.toFloat == b.toFloat
  | a, b => a == b

/-- The order of two floats, unless one of them is no number. -/
def orderFloats? (a b : Float) : Option Ordering :=
  if a < b then some .lt else if a == b then some .eq else if b < a then some .gt else none

/-- The order of two strings by code points. -/
def orderStrings (a b : String) : Ordering :=
  if a < b then .lt else if a = b then .eq else .gt

/-- Whether two values in a given order satisfy an order comparison. -/
def accepts : Comparison → Ordering → Bool
  | greater, o => o == .gt
  | greaterOrEqual, o => o != .lt
  | less, o => o == .lt
  | lessOrEqual, o => o != .gt
  | _, _ => false

/-- An order comparison of two values; only two numbers or two strings have an order. -/
def order (op : Comparison) : Value → Value → Except RuleFault Bool
  | .number a, .number b => .ok ((orderFloats? a.toFloat b.toFloat).any op.accepts)
  | .string a, .string b => .ok (op.accepts (orderStrings a b))
  | a, b => .error (.unordered a b)

/-- Whether a string has a part, an array an item or an object a key. -/
def contain : Value → Value → Except RuleFault Bool
  | .string a, .string b => .ok (Text.occurs b.toList a.toList)
  | .array items, v => .ok (items.any fun item => looselyEqual item v)
  | .object fields, .string key => .ok (Fields.find? key fields).isSome
  | a, b => .error (.noContainer a b)

/-- A comparison of two values. -/
def apply : Comparison → Value → Value → Except RuleFault Bool
  | equal, a, b => .ok (looselyEqual a b)
  | notEqual, a, b => .ok (!looselyEqual a b)
  | contains, a, b => contain a b
  | op, a, b => op.order a b

end Comparison

/-- The value a path names in a predicate. A missing last segment is null; what stands above it
must be there and not null. -/
def Context.resolve (c : Context) (path : Path) : Except RuleFault Value :=
  if path.hasEmptySegment then .error (.invalidPath path)
  else
    match path.parent? with
    | none => .ok ((c.lookup path).getD .null)
    | some parent =>
      match c.lookup parent with
      | none | some .null => .error (.undefinedParent path.last parent)
      | some _ => .ok ((c.lookup path).getD .null)

namespace Predicate

mutual

/-- The value of a predicate. -/
def evaluate (c : Context) : Predicate → Except RuleFault Value
  | literal v => .ok v
  | field path => c.resolve path
  | compare op left right =>
    match evaluate c left with
    | .error e => .error e
    | .ok a =>
      match evaluate c right with
      | .error e => .error e
      | .ok b => (op.apply a b).map Value.bool
  | all operands => (allHold c operands).map Value.bool
  | any operands => (someHolds c operands).map Value.bool
  | not operand =>
    match evaluate c operand with
    | .error e => .error e
    | .ok v => .ok (.bool !truthy v)

/-- Whether all of some predicates hold; those after the first that does not are left aside. -/
def allHold (c : Context) : List Predicate → Except RuleFault Bool
  | [] => .ok true
  | p :: rest =>
    match evaluate c p with
    | .error e => .error e
    | .ok v => if truthy v then allHold c rest else .ok false

/-- Whether one of some predicates holds; those after the first that does are left aside. -/
def someHolds (c : Context) : List Predicate → Except RuleFault Bool
  | [] => .ok false
  | p :: rest =>
    match evaluate c p with
    | .error e => .error e
    | .ok v => if truthy v then .ok true else someHolds c rest

end

/-- Whether a predicate holds. -/
def test (c : Context) (p : Predicate) : Except RuleFault Bool := (p.evaluate c).map truthy

end Predicate

namespace Condition

/-- The predicate of a condition. -/
def predicate : Condition → Except Fault Predicate
  | text source => (Predicate.ofText source).mapError .ruleText
  | tree p => .ok p

/-- The value of a condition. -/
def evaluate (c : Context) (condition : Condition) : Except Fault Value :=
  match condition.predicate with
  | .error e => .error e
  | .ok p => (p.evaluate c).mapError .rule

/-- Whether a condition holds. A text is read every time, so a malformed one fails where it is
reached. -/
def test (c : Context) (condition : Condition) : Except Fault Bool :=
  (condition.evaluate c).map truthy

end Condition

end TriageFlow
