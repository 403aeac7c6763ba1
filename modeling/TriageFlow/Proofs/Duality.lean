import TriageFlow.Proofs.ShortCircuit

/-!
The laws of `all` and `any`, faults included. Negation turns the outcome that decides the one into
the outcome that decides the other and leaves faults as they are, so the two are dual
(`map_not_bothHold`, `map_not_eitherHolds`) although operands are tested in order and not all of
them are. What stands behind an operand that decides or fails is never tested
(`allHold_of_decided`, `someHolds_of_decided`).
-/

namespace TriageFlow

section Outcomes

variable {ε : Type} (first second third : Except ε Bool)

theorem bothHold_assoc : bothHold (bothHold first second) third =
    bothHold first (bothHold second third) := by
  rcases first with _ | _ | _ <;> rfl

theorem map_not_bothHold : (bothHold first second).map (!·) =
    eitherHolds (first.map (!·)) (second.map (!·)) := by
  rcases first with _ | _ | _ <;> rfl

theorem map_not_eitherHolds : (eitherHolds first second).map (!·) =
    bothHold (first.map (!·)) (second.map (!·)) := by
  rcases first with _ | _ | _ <;> rfl

variable {first}

/-- A first test that does not hold is the outcome. -/
theorem bothHold_of_decided (h : first ≠ .ok true) : bothHold first second = first := by
  rcases first with _ | _ | _
  · rfl
  · rfl
  · exact absurd rfl h

/-- A first test that is not merely false is the outcome. -/
theorem eitherHolds_of_decided (h : first ≠ .ok false) : eitherHolds first second = first := by
  rcases first with _ | _ | _
  · rfl
  · exact absurd rfl h
  · rfl

end Outcomes

namespace Predicate

open Json (Value)

variable {c : Context} {p q : Predicate} {ps qs : List Predicate}

/-! ## Values and tests -/

theorem evaluate_not : (not p).evaluate c = ((p.test c).map (!·)).map Value.bool := by
  rw [evaluate, test]
  cases p.evaluate c <;> rfl

theorem evaluate_all : (all ps).evaluate c = (allHold c ps).map Value.bool := by
  rw [evaluate]

theorem evaluate_any : (any ps).evaluate c = (someHolds c ps).map Value.bool := by
  rw [evaluate]

theorem someHolds_pair : someHolds c [p, q] = eitherHolds (p.test c) (q.test c) := by
  rw [someHolds_cons, someHolds_singleton]

/-- All operands of two lists hold if those of the first do, and then those of the second. -/
theorem allHold_append : allHold c (ps ++ qs) = bothHold (allHold c ps) (allHold c qs) := by
  induction ps with
  | nil => rw [List.nil_append, allHold, bothHold]
  | cons p ps ih => rw [List.cons_append, allHold_cons, allHold_cons, ih, bothHold_assoc]

/-! ## Duality -/

theorem someHolds_map_not : someHolds c (ps.map not) = (allHold c ps).map (!·) := by
  induction ps with
  | nil => rfl
  | cons p ps ih =>
    rw [List.map_cons, someHolds_cons, test_not, ih, allHold_cons, map_not_bothHold]

theorem allHold_map_not : allHold c (ps.map not) = (someHolds c ps).map (!·) := by
  induction ps with
  | nil => rfl
  | cons p ps ih =>
    rw [List.map_cons, allHold_cons, test_not, ih, someHolds_cons, map_not_eitherHolds]

/-! ## The operand that decides -/

/-- An operand that fails or does not hold is the last one that counts. -/
theorem allHold_of_decided (h : p.test c ≠ .ok true) :
    allHold c (ps ++ p :: qs) = bothHold (allHold c ps) (p.test c) := by
  rw [allHold_append, allHold_cons, bothHold_of_decided _ h]

/-- An operand that fails or holds is the last one that counts. -/
theorem someHolds_of_decided (h : p.test c ≠ .ok false) :
    someHolds c (ps ++ p :: qs) = eitherHolds (someHolds c ps) (p.test c) := by
  rw [someHolds_append, someHolds_cons, eitherHolds_of_decided _ h]

theorem allHold_of_forall (h : ∀ q ∈ ps, q.test c = .ok true) : allHold c ps = .ok true := by
  induction ps with
  | nil => rfl
  | cons p ps ih =>
    obtain ⟨hp, hps⟩ := List.forall_mem_cons.mp h
    rw [allHold_cons, hp, bothHold, ih hps]

theorem someHolds_of_forall (h : ∀ q ∈ ps, q.test c = .ok false) :
    someHolds c ps = .ok false := by
  induction ps with
  | nil => rfl
  | cons p ps ih =>
    obtain ⟨hp, hps⟩ := List.forall_mem_cons.mp h
    rw [someHolds_cons, hp, eitherHolds, ih hps]

/-- The laws of Boolean algebra hold of the connectives in every context, with the value or the
fault of the whole: the two are dual, a list can be cut into two lists, and the first operand that
fails or decides is the outcome, whatever stands behind it. -/
theorem connectives_obey_boolean_laws (c : Context) (xs ys : List Predicate) :
    (not (all xs)).evaluate c = (any (xs.map not)).evaluate c ∧
    (not (any xs)).evaluate c = (all (xs.map not)).evaluate c ∧
    (all (xs ++ ys)).evaluate c = (all [all xs, all ys]).evaluate c ∧
    (any (xs ++ ys)).evaluate c = (any [any xs, any ys]).evaluate c ∧
    (∀ p, p.test c ≠ .ok true →
      ((∀ q ∈ xs, q.test c = .ok true) →
        (all (xs ++ p :: ys)).evaluate c = (p.test c).map Value.bool) ∧
      ∀ zs, (all (xs ++ p :: ys)).evaluate c = (all (xs ++ p :: zs)).evaluate c) ∧
    ∀ p, p.test c ≠ .ok false →
      ((∀ q ∈ xs, q.test c = .ok false) →
        (any (xs ++ p :: ys)).evaluate c = (p.test c).map Value.bool) ∧
      ∀ zs, (any (xs ++ p :: ys)).evaluate c = (any (xs ++ p :: zs)).evaluate c := by
  refine ⟨?_, ?_, ?_, ?_, fun p hp => ⟨fun hxs => ?_, fun zs => ?_⟩,
    fun p hp => ⟨fun hxs => ?_, fun zs => ?_⟩⟩
  · rw [evaluate_not, test_all, evaluate_any, someHolds_map_not]
  · rw [evaluate_not, test_any, evaluate_all, allHold_map_not]
  · rw [evaluate_all, evaluate_all, allHold_pair, test_all, test_all, allHold_append]
  · rw [evaluate_any, evaluate_any, someHolds_pair, test_any, test_any, someHolds_append]
  · rw [evaluate_all, allHold_of_decided hp, allHold_of_forall hxs, bothHold]
  · rw [evaluate_all, evaluate_all, allHold_of_decided hp, allHold_of_decided hp]
  · rw [evaluate_any, someHolds_of_decided hp, someHolds_of_forall hxs, eitherHolds]
  · rw [evaluate_any, evaluate_any, someHolds_of_decided hp, someHolds_of_decided hp]

/-- A text that holds, and behind it a path that fails: the number behind both is never looked at,
neither in the list nor in its dual. -/
theorem mixed_operands_obey_boolean_laws :
    let c := Context.start (.object [("message", .string "bonjour")]) "trace-1"
    let greeted : Predicate := .field ⟨"input", ["message"]⟩
    let urgent : Predicate := .field ⟨"analysis", ["is_urgent"]⟩
    let zero : Predicate := .literal (.nat 0)
    urgent.test c = .error (.undefinedParent "is_urgent" ⟨"analysis", []⟩) ∧
    greeted.test c = .ok true ∧
    (all [greeted, urgent, zero]).evaluate c = (urgent.test c).map Value.bool ∧
    (not (all [greeted, urgent, zero])).evaluate c =
      (any [not greeted, not urgent, not zero]).evaluate c := by
  intro c greeted urgent zero
  have hurgent : urgent.test c = .error (.undefinedParent "is_urgent" ⟨"analysis", []⟩) := rfl
  have hgreeted : greeted.test c = .ok true := rfl
  have hfails : urgent.test c ≠ .ok true := by
    rw [hurgent]
    nofun
  obtain ⟨-, -, -, -, hdecides, -⟩ := connectives_obey_boolean_laws c [greeted] [zero]
  obtain ⟨hdual, -⟩ := connectives_obey_boolean_laws c [greeted, urgent, zero] []
  exact ⟨hurgent, hgreeted,
    (hdecides urgent hfails).1 (List.forall_mem_singleton.mpr hgreeted), hdual⟩

end Predicate

end TriageFlow
