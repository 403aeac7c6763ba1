import TriageFlow.Json.Value
import TriageFlow.Context.Path

/-!
Predicates over a context: literals and paths, comparisons of two predicates, and the
connectives. The operands of `all` and `any` are taken in order.
-/

namespace TriageFlow

open Json (Value)

/-- The comparisons of two values. -/
inductive Comparison where
  | equal
  | notEqual
  | greater
  | greaterOrEqual
  | less
  | lessOrEqual
  | contains
deriving DecidableEq

/-- A predicate. -/
inductive Predicate where
  | literal (value : Value)
  | field (path : Path)
  | compare (op : Comparison) (left right : Predicate)
  | all (operands : List Predicate)
  | any (operands : List Predicate)
  | not (operand : Predicate)
deriving Inhabited

namespace Predicate

/-- The predicate that always holds. -/
def always : Predicate := literal (.bool true)

/-- A predicate under a number of negations. -/
def negate : Nat → Predicate → Predicate
  | 0, p => p
  | n + 1, p => .not (negate n p)

end Predicate

/-- A rule's condition: a text, or a predicate in its structured form. -/
inductive Condition where
  | text (source : String)
  | tree (predicate : Predicate)

/-- An entry of a router's list: where to go on a condition. -/
structure RouteRule where
  condition : Condition
  target : String

end TriageFlow
