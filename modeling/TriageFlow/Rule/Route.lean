import TriageFlow.Rule.Evaluation

/-!
The choice of a route. Rules are scanned in order, and the first one that holds and whose target
exists is taken. A rule that fails, or holds with a target that does not exist, leaves a
diagnostic and is passed over.
-/

namespace TriageFlow

/-- What happened to a rule that was passed over. -/
inductive RuleDiagnostic where
  | failed (index : Nat) (fault : Fault)
  | dangling (index : Nat) (target : String)

/-- The outcome of a scan. -/
structure RouteDecision where
  target : Option String
  diagnostics : List RuleDiagnostic

namespace RouteDecision

/-- A decision with one diagnostic before its own. -/
def after (d : RouteDecision) (diagnostic : RuleDiagnostic) : RouteDecision :=
  { d with diagnostics := diagnostic :: d.diagnostics }

/-- The decision of some rules, the first of which has the given index. -/
def scan (c : Context) (declared : String → Bool) (index : Nat) : List RouteRule → RouteDecision
  | [] => ⟨none, []⟩
  | rule :: rest =>
    match rule.condition.test c with
    | .ok true =>
      if declared rule.target then ⟨some rule.target, []⟩
      else (scan c declared (index + 1) rest).after (.dangling index rule.target)
    | .ok false => scan c declared (index + 1) rest
    | .error e => (scan c declared (index + 1) rest).after (.failed index e)

/-- The decision of a list of rules. -/
def ofRules (rules : List RouteRule) (c : Context) (declared : String → Bool) : RouteDecision :=
  scan c declared 0 rules

end RouteDecision

end TriageFlow
