import TriageFlow.Rule.Route

/-!
Which rule a scan picks, and what it tells of the others. A scan comes to a rule when none before
it has ended the scan (`Meets`), it picks the rule that it comes to and that ends it
(`target_scan_eq_some_iff`), and it tells of each rule that it passes over what the rule alone
decides (`mem_diagnostics_scan_iff`). A text that cannot be read is never picked, and only such a
text fails as one (`Condition.test_eq_ruleText_iff`).
-/

namespace TriageFlow

/-! ## Conditions -/

namespace Condition

variable {condition : Condition} {fault : Fault}

/-- A condition without a predicate is a text that cannot be read. -/
theorem exists_of_predicate_eq_error (h : condition.predicate = .error fault) :
    ∃ source cause, condition = .text source ∧ Predicate.ofText source = .error cause ∧
      fault = .ruleText cause := by
  cases condition with
  | tree p => cases h
  | text source =>
    simp only [predicate] at h
    cases hread : Predicate.ofText source with
    | ok p =>
      rw [hread] at h
      cases h
    | error cause =>
      rw [hread] at h
      cases h
      exact ⟨source, cause, rfl, hread, rfl⟩

theorem test_of_predicate_eq_error (h : condition.predicate = .error fault) (c : Context) :
    condition.test c = .error fault := by
  simp only [test, evaluate, h]
  rfl

theorem test_of_predicate_eq_ok {p : Predicate} (h : condition.predicate = .ok p) (c : Context) :
    condition.test c = (p.test c).mapError .rule := by
  simp only [test, evaluate, h, Predicate.test]
  cases p.evaluate c with
  | ok v => rfl
  | error cause => rfl

/-- The fault of a text comes from its reading, whatever the context. -/
theorem test_eq_ruleText_iff {c : Context} {cause : RuleTextFault} :
    condition.test c = .error (.ruleText cause) ↔
      condition.predicate = .error (.ruleText cause) := by
  cases h : condition.predicate with
  | error fault =>
    rw [test_of_predicate_eq_error h]
    simp
  | ok p =>
    rw [test_of_predicate_eq_ok h]
    cases p.test c with
    | ok b => exact iff_of_false nofun nofun
    | error fault => exact iff_of_false nofun nofun

end Condition

/-! ## Scans -/

namespace RouteDecision

variable {c : Context} {declared : String → Bool} {first rule : RouteRule}
  {rules rest : List RouteRule} {i k : Nat}

/-- A rule ends a scan that comes to it if it holds and its target is declared. -/
def Ends (c : Context) (declared : String → Bool) (rule : RouteRule) : Prop :=
  rule.condition.test c = .ok true ∧ declared rule.target = true

/-- A scan comes to the rule at an index: no rule before it has ended the scan. -/
structure Meets (c : Context) (declared : String → Bool) (rules : List RouteRule) (i : Nat)
    (rule : RouteRule) : Prop where
  listed : rules[i]? = some rule
  passed : ∀ earlier ∈ rules.take i, ¬Ends c declared earlier

/-- A scan picks the rule at an index: it comes to it and ends there. -/
def Picks (c : Context) (declared : String → Bool) (rules : List RouteRule) (i : Nat)
    (rule : RouteRule) : Prop :=
  Meets c declared rules i rule ∧ Ends c declared rule

/-- What a scan tells of a rule that it comes to. -/
def diagnosis? (c : Context) (declared : String → Bool) (index : Nat) (rule : RouteRule) :
    Option RuleDiagnostic :=
  match rule.condition.test c with
  | .ok true => if declared rule.target then none else some (.dangling index rule.target)
  | .ok false => none
  | .error fault => some (.failed index fault)

theorem not_meets_nil : ¬Meets c declared [] i rule := fun h => by
  cases h.listed

theorem meets_cons_zero_iff : Meets c declared (first :: rest) 0 rule ↔ first = rule := by
  constructor
  · intro h
    exact Option.some.inj h.listed
  · rintro rfl
    exact ⟨rfl, by simp⟩

theorem meets_cons_succ_iff : Meets c declared (first :: rest) (i + 1) rule ↔
    ¬Ends c declared first ∧ Meets c declared rest i rule := by
  constructor
  · intro h
    obtain ⟨hfirst, hrest⟩ := List.forall_mem_cons.mp h.passed
    exact ⟨hfirst, h.listed, hrest⟩
  · rintro ⟨hfirst, h⟩
    exact ⟨h.listed, List.forall_mem_cons.mpr ⟨hfirst, h.passed⟩⟩

theorem diagnosis?_of_ends (h : Ends c declared rule) : diagnosis? c declared k rule = none := by
  simp only [diagnosis?, h.1, h.2, if_true]

/-- A scan goes to the target of the rule that ends it, and looks at no rule behind. -/
theorem scan_cons_of_ends (h : Ends c declared first) :
    scan c declared k (first :: rest) = ⟨some first.target, []⟩ := by
  simp only [scan, h.1, h.2, if_true]

/-- A scan tells what there is to tell of a rule that does not end it, and goes on. -/
theorem scan_cons_of_not_ends (h : ¬Ends c declared first) :
    scan c declared k (first :: rest) = ⟨(scan c declared (k + 1) rest).target,
      (diagnosis? c declared k first).toList ++ (scan c declared (k + 1) rest).diagnostics⟩ := by
  simp only [scan, diagnosis?]
  cases htest : first.condition.test c with
  | error fault => rfl
  | ok holds =>
    cases holds with
    | false => rfl
    | true =>
      have hundeclared : declared first.target ≠ true := fun hdeclared => h ⟨htest, hdeclared⟩
      simp only [if_neg hundeclared]
      rfl

/-- A scan goes to the target of the rule that it picks. -/
theorem target_scan_eq_some_iff {target : String} :
    (scan c declared k rules).target = some target ↔
      ∃ i rule, Picks c declared rules i rule ∧ rule.target = target := by
  induction rules generalizing k with
  | nil => simp [scan, Picks, not_meets_nil]
  | cons first rest ih =>
    by_cases hends : Ends c declared first
    · rw [scan_cons_of_ends hends]
      constructor
      · intro h
        exact ⟨0, first, ⟨meets_cons_zero_iff.mpr rfl, hends⟩, Option.some.inj h⟩
      · rintro ⟨i, rule, ⟨hmeets, -⟩, rfl⟩
        cases i with
        | zero => rw [meets_cons_zero_iff.mp hmeets]
        | succ i => exact absurd hends (meets_cons_succ_iff.mp hmeets).1
    · rw [scan_cons_of_not_ends hends]
      refine ih.trans ?_
      constructor
      · rintro ⟨i, rule, ⟨hmeets, hpicked⟩, htarget⟩
        exact ⟨i + 1, rule, ⟨meets_cons_succ_iff.mpr ⟨hends, hmeets⟩, hpicked⟩, htarget⟩
      · rintro ⟨i, rule, ⟨hmeets, hpicked⟩, htarget⟩
        cases i with
        | zero => exact absurd (meets_cons_zero_iff.mp hmeets ▸ hpicked) hends
        | succ i => exact ⟨i, rule, ⟨(meets_cons_succ_iff.mp hmeets).2, hpicked⟩, htarget⟩

/-- A scan tells of the rules that it comes to, of each what it alone decides. -/
theorem mem_diagnostics_scan_iff {diagnostic : RuleDiagnostic} :
    diagnostic ∈ (scan c declared k rules).diagnostics ↔
      ∃ i rule, Meets c declared rules i rule ∧
        diagnosis? c declared (k + i) rule = some diagnostic := by
  induction rules generalizing k with
  | nil => simp [scan, not_meets_nil]
  | cons first rest ih =>
    by_cases hends : Ends c declared first
    · rw [scan_cons_of_ends hends]
      simp only [List.not_mem_nil, false_iff]
      rintro ⟨i, rule, hmeets, htold⟩
      cases i with
      | zero =>
        obtain rfl := meets_cons_zero_iff.mp hmeets
        rw [diagnosis?_of_ends hends] at htold
        cases htold
      | succ i => exact (meets_cons_succ_iff.mp hmeets).1 hends
    · rw [scan_cons_of_not_ends hends, List.mem_append, Option.mem_toList, ih]
      constructor
      · rintro (htold | ⟨i, rule, hmeets, htold⟩)
        · exact ⟨0, first, meets_cons_zero_iff.mpr rfl, htold⟩
        · refine ⟨i + 1, rule, meets_cons_succ_iff.mpr ⟨hends, hmeets⟩, ?_⟩
          rwa [← Nat.add_assoc, Nat.add_right_comm]
      · rintro ⟨i, rule, hmeets, htold⟩
        cases i with
        | zero =>
          obtain rfl := meets_cons_zero_iff.mp hmeets
          exact .inl htold
        | succ i =>
          refine .inr ⟨i, rule, (meets_cons_succ_iff.mp hmeets).2, ?_⟩
          rwa [Nat.add_right_comm, Nat.add_assoc]

theorem diagnosis?_eq_failed_iff {fault : Fault} {index : Nat} :
    diagnosis? c declared k rule = some (.failed index fault) ↔
      index = k ∧ rule.condition.test c = .error fault := by
  unfold diagnosis?
  cases rule.condition.test c with
  | error cause => simp [eq_comm]
  | ok holds =>
    cases holds with
    | false => simp
    | true =>
      cases declared rule.target with
      | false => simp
      | true => simp

theorem diagnosis?_eq_dangling_iff {index : Nat} {target : String} :
    diagnosis? c declared k rule = some (.dangling index target) ↔
      index = k ∧ target = rule.target ∧ rule.condition.test c = .ok true ∧
        declared rule.target = false := by
  unfold diagnosis?
  cases rule.condition.test c with
  | error cause => simp
  | ok holds =>
    cases holds with
    | false => simp
    | true =>
      cases declared rule.target with
      | false => simp [eq_comm]
      | true => simp

end RouteDecision

end TriageFlow
