import TriageFlow.Proofs.RouteScan

/-!
What decides a scan. The rules before the first one that ends it are passed over, each with what
there is to tell of it (`scan_append`), and nothing behind that rule is looked at
(`scan_append_cons`). So the first rule that holds and whose target is declared decides the target
and the diagnostics (`first_ending_rule_decides`), and the diagnostics stand in the order of the
rules, each rule's at most once (`diagnostics_scan_ordered`).
-/

namespace TriageFlow

/-- The index of the rule that a diagnostic tells of. -/
def RuleDiagnostic.index : RuleDiagnostic → Nat
  | failed index _ => index
  | dangling index _ => index

namespace RouteDecision

variable {c : Context} {declared : String → Bool} {rule : RouteRule}
  {rules front rest : List RouteRule} {i k : Nat}

/-! ## Rules that are passed over -/

/-- A scan passes over the rules that do not end it, and tells of them first. -/
theorem scan_append (h : ∀ rule ∈ front, ¬Ends c declared rule) (rest : List RouteRule) :
    scan c declared k (front ++ rest) = ⟨(scan c declared (k + front.length) rest).target,
      (scan c declared k front).diagnostics ++
        (scan c declared (k + front.length) rest).diagnostics⟩ := by
  induction front generalizing k with
  | nil => rfl
  | cons first front ih =>
    obtain ⟨hfirst, hfront⟩ := List.forall_mem_cons.mp h
    have hindex : k + 1 + front.length = k + (first :: front).length := by
      rw [List.length_cons]
      omega
    rw [List.cons_append, scan_cons_of_not_ends hfirst, scan_cons_of_not_ends hfirst, ih hfront,
      hindex, List.append_assoc]

/-- A scan ends at the first rule that ends it, whatever stands behind. -/
theorem scan_append_cons (h : ∀ rule ∈ front, ¬Ends c declared rule)
    (hends : Ends c declared rule) (rest : List RouteRule) :
    scan c declared k (front ++ rule :: rest) =
      ⟨some rule.target, (scan c declared k front).diagnostics⟩ := by
  rw [scan_append h, scan_cons_of_ends hends, List.append_nil]

/-- A scan that no rule ends goes nowhere. -/
theorem target_scan_eq_none (h : ∀ rule ∈ rules, ¬Ends c declared rule) :
    (scan c declared k rules).target = none := by
  refine Option.eq_none_iff_forall_ne_some.mpr fun target htarget => ?_
  obtain ⟨i, rule, ⟨hmeets, hends⟩, -⟩ := target_scan_eq_some_iff.mp htarget
  exact h rule (List.mem_of_getElem? hmeets.listed) hends

/-! ## Diagnostics -/

theorem index_of_diagnosis? {diagnostic : RuleDiagnostic}
    (h : diagnosis? c declared k rule = some diagnostic) : diagnostic.index = k := by
  cases diagnostic with
  | failed index fault => exact (diagnosis?_eq_failed_iff.mp h).1
  | dangling index target => exact (diagnosis?_eq_dangling_iff.mp h).1

/-- Diagnostics stand in the order of the rules, and no rule has two. -/
theorem diagnostics_scan_ordered (c : Context) (declared : String → Bool) (k : Nat)
    (rules : List RouteRule) :
    (scan c declared k rules).diagnostics.Pairwise fun a b => a.index < b.index := by
  induction rules generalizing k with
  | nil => exact .nil
  | cons first rest ih =>
    by_cases hends : Ends c declared first
    · rw [scan_cons_of_ends hends]
      exact .nil
    · rw [scan_cons_of_not_ends hends]
      refine List.pairwise_append.mpr ⟨?_, ih (k + 1), fun a ha b hb => ?_⟩
      · cases diagnosis? c declared k first with
        | none => exact .nil
        | some diagnostic => exact List.pairwise_singleton _ _
      · have hfirst := index_of_diagnosis? (Option.mem_toList.mp ha)
        obtain ⟨i, rule, -, hrest⟩ := mem_diagnostics_scan_iff.mp hb
        have hrest := index_of_diagnosis? hrest
        omega

/-- The diagnostics of some rules, none of which is taken: one for each rule that fails and for
each that holds with a target that is not declared, in the order of the rules. -/
structure TellsOf (c : Context) (declared : String → Bool) (rules : List RouteRule)
    (diagnostics : List RuleDiagnostic) : Prop where
  ordered : diagnostics.Pairwise fun a b => a.index < b.index
  failed : ∀ j fault, .failed j fault ∈ diagnostics ↔
    ∃ rule, rules[j]? = some rule ∧ rule.condition.test c = .error fault
  dangling : ∀ j target, .dangling j target ∈ diagnostics ↔
    ∃ rule, rules[j]? = some rule ∧ rule.target = target ∧ rule.condition.test c = .ok true ∧
      declared target = false

theorem meets_iff_of_forall (h : ∀ rule ∈ rules, ¬Ends c declared rule) :
    Meets c declared rules i rule ↔ rules[i]? = some rule :=
  ⟨Meets.listed, fun hrule => ⟨hrule, fun other hmem => h other (List.mem_of_mem_take hmem)⟩⟩

/-- A scan that no rule ends tells of all of them. -/
theorem tellsOf_scan (h : ∀ rule ∈ rules, ¬Ends c declared rule) :
    TellsOf c declared rules (scan c declared 0 rules).diagnostics where
  ordered := diagnostics_scan_ordered c declared 0 rules
  failed j fault := by
    rw [mem_diagnostics_scan_iff]
    simp only [meets_iff_of_forall h, diagnosis?_eq_failed_iff, Nat.zero_add]
    constructor
    · rintro ⟨j, rule, hrule, rfl, htest⟩
      exact ⟨rule, hrule, htest⟩
    · rintro ⟨rule, hrule, htest⟩
      exact ⟨j, rule, hrule, rfl, htest⟩
  dangling j target := by
    rw [mem_diagnostics_scan_iff]
    simp only [meets_iff_of_forall h, diagnosis?_eq_dangling_iff, Nat.zero_add]
    constructor
    · rintro ⟨j, rule, hrule, rfl, rfl, htest, hdeclared⟩
      exact ⟨rule, hrule, rfl, htest, hdeclared⟩
    · rintro ⟨rule, hrule, rfl, htest, hdeclared⟩
      exact ⟨j, rule, hrule, rfl, rfl, htest, hdeclared⟩

/-! ## The decision -/

/-- The rules around the one that a scan picks. -/
theorem Picks.eq_append (h : Picks c declared rules i rule) :
    rules = rules.take i ++ rule :: rules.drop (i + 1) ∧ i < rules.length := by
  obtain ⟨hi, rfl⟩ := List.getElem?_eq_some_iff.mp h.1.listed
  exact ⟨by rw [List.getElem_cons_drop, List.take_append_drop], hi⟩

/-- The first rule that holds and whose target is declared decides a scan: its target is taken, the
diagnostics are those of the rules before it, no rule behind it matters, and leaving out one before
it does not change the target. If there is no such rule, nothing is taken and the diagnostics are
those of all rules. -/
theorem first_ending_rule_decides (rules : List RouteRule) (c : Context)
    (declared : String → Bool) :
    (∀ i rule, Picks c declared rules i rule →
      (ofRules rules c declared).target = some rule.target ∧
      TellsOf c declared (rules.take i) (ofRules rules c declared).diagnostics ∧
      (∀ rest, ofRules (rules.take (i + 1) ++ rest) c declared = ofRules rules c declared) ∧
      ∀ j < i, (ofRules (rules.eraseIdx j) c declared).target = some rule.target) ∧
    ((∀ rule ∈ rules, ¬Ends c declared rule) →
      (ofRules rules c declared).target = none ∧
      TellsOf c declared rules (ofRules rules c declared).diagnostics ∧
      ∀ j, (ofRules (rules.eraseIdx j) c declared).target = none) := by
  constructor
  · intro i rule hpicks
    obtain ⟨hrules, hi⟩ := hpicks.eq_append
    have hpassed := hpicks.1.passed
    have hscan : ofRules rules c declared =
        ⟨some rule.target, (scan c declared 0 (rules.take i)).diagnostics⟩ :=
      calc ofRules rules c declared
          = scan c declared 0 (rules.take i ++ rule :: rules.drop (i + 1)) := by
            rw [← hrules, ofRules]
        _ = ⟨some rule.target, (scan c declared 0 (rules.take i)).diagnostics⟩ :=
            scan_append_cons hpassed hpicks.2 _
    refine ⟨by rw [hscan], by rw [hscan]; exact tellsOf_scan hpassed, fun rest => ?_,
      fun j hj => ?_⟩
    · have htake : rules.take (i + 1) = rules.take i ++ [rule] := by
        rw [List.take_add_one, hpicks.1.listed, Option.toList_some]
      rw [hscan, htake, List.append_assoc]
      exact scan_append_cons hpassed hpicks.2 rest
    · have hlength : j < (rules.take i).length := by
        rw [List.length_take]
        omega
      have hothers : ∀ other ∈ (rules.take i).eraseIdx j, ¬Ends c declared other :=
        fun other hmem => hpassed other (List.mem_of_mem_eraseIdx hmem)
      rw [hrules, List.eraseIdx_append_of_lt_length hlength, ofRules,
        scan_append_cons hothers hpicks.2]
  · intro hnone
    refine ⟨target_scan_eq_none hnone, tellsOf_scan hnone, fun j => ?_⟩
    exact target_scan_eq_none fun other hmem => hnone other (List.mem_of_mem_eraseIdx hmem)

/-- Rules of which the fourth is the first that can be taken. -/
def turnstile : List RouteRule :=
  [⟨.text "(", "hall"⟩, ⟨.tree .always, "roof"⟩, ⟨.tree (.literal .null), "hall"⟩,
    ⟨.tree .always, "hall"⟩, ⟨.tree .always, "roof"⟩]

/-- The first rule fails and the second leads nowhere; both are told of, and the fourth is taken,
with any rules behind it and without the second. -/
theorem turnstile_fourth_rule_decides :
    let c := Context.start .null "trace"
    let declared : String → Bool := fun id => id == "hall"
    Picks c declared turnstile 3 ⟨.tree .always, "hall"⟩ ∧
    ofRules turnstile c declared =
      ⟨some "hall", [.failed 0 (.ruleText (.malformed "(")), .dangling 1 "roof"]⟩ ∧
    (∀ rest, ofRules (turnstile.take 4 ++ rest) c declared = ofRules turnstile c declared) ∧
    (ofRules (turnstile.eraseIdx 1) c declared).target = some "hall" := by
  intro c declared
  have hpicks : Picks c declared turnstile 3 ⟨.tree .always, "hall"⟩ := by
    refine ⟨⟨rfl, ?_⟩, rfl, rfl⟩
    rintro rule (_ | ⟨_, _ | ⟨_, _ | ⟨_, ⟨⟩⟩⟩⟩) ⟨htest, hdeclared⟩
    · cases htest
    · cases hdeclared
    · cases htest
  obtain ⟨-, -, hrest, herase⟩ := (first_ending_rule_decides turnstile c declared).1 3 _ hpicks
  exact ⟨hpicks, rfl, hrest, herase 1 (by decide)⟩

end RouteDecision

end TriageFlow
