import TriageFlow.Rule.Evaluation

/-!
The tests of connectives. A list of operands tests as its first operand and then, unless that
decides or fails, as the others (`allHold_cons`, `someHolds_cons`); so lists one behind the other
test as the first list and then as the second (`someHolds_append`).
-/

namespace TriageFlow

section Outcomes

variable {ε : Type}

/-- Two tests that both have to hold. The second one counts only where the first holds. -/
def bothHold : Except ε Bool → Except ε Bool → Except ε Bool
  | .error e, _ => .error e
  | .ok false, _ => .ok false
  | .ok true, second => second

/-- Two tests of which one has to hold. The second one counts only where the first does not
hold. -/
def eitherHolds : Except ε Bool → Except ε Bool → Except ε Bool
  | .error e, _ => .error e
  | .ok true, _ => .ok true
  | .ok false, second => second

variable (first second third : Except ε Bool)

theorem bothHold_true : bothHold first (.ok true) = first := by
  rcases first with _ | _ | _ <;> rfl

theorem eitherHolds_false : eitherHolds first (.ok false) = first := by
  rcases first with _ | _ | _ <;> rfl

theorem eitherHolds_assoc : eitherHolds (eitherHolds first second) third =
    eitherHolds first (eitherHolds second third) := by
  rcases first with _ | _ | _ <;> rfl

end Outcomes

namespace Predicate

variable {c : Context} {p : Predicate} {ps qs : List Predicate}

/-- A truth value as a value has itself as its truth. -/
theorem map_truthy_bool {ε : Type} (outcome : Except ε Bool) :
    (outcome.map Json.Value.bool).map truthy = outcome := by
  cases outcome <;> rfl

theorem test_not : (not p).test c = (p.test c).map (!·) := by
  unfold test
  rw [evaluate]
  cases p.evaluate c <;> rfl

theorem test_all : (all ps).test c = allHold c ps := by
  rw [test, evaluate, map_truthy_bool]

theorem test_any : (any ps).test c = someHolds c ps := by
  rw [test, evaluate, map_truthy_bool]

theorem allHold_cons : allHold c (p :: ps) = bothHold (p.test c) (allHold c ps) := by
  rw [allHold, test]
  cases p.evaluate c with
  | error e => rfl
  | ok v => cases h : truthy v <;> simp [Except.map, bothHold, h]

theorem someHolds_cons : someHolds c (p :: ps) = eitherHolds (p.test c) (someHolds c ps) := by
  rw [someHolds, test]
  cases p.evaluate c with
  | error e => rfl
  | ok v => cases h : truthy v <;> simp [Except.map, eitherHolds, h]

theorem allHold_pair {q : Predicate} : allHold c [p, q] = bothHold (p.test c) (q.test c) := by
  rw [allHold_cons, allHold_cons, allHold, bothHold_true]

theorem someHolds_singleton : someHolds c [p] = p.test c := by
  rw [someHolds_cons, someHolds, eitherHolds_false]

/-- One of the operands of two lists holds if one of the first does, or else one of the second. -/
theorem someHolds_append :
    someHolds c (ps ++ qs) = eitherHolds (someHolds c ps) (someHolds c qs) := by
  induction ps with
  | nil => rw [List.nil_append, someHolds, eitherHolds]
  | cons p ps ih => rw [List.cons_append, someHolds_cons, someHolds_cons, ih, eitherHolds_assoc]

end Predicate

end TriageFlow
