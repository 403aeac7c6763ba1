import TriageFlow.Proofs.Validity
import TriageFlow.Rule.Evaluation

/-!
The warnings of a definition, by the rules that they tell of. Every warning is that of one rule of
one router (`mem_warnings_iff`), and a rule is warned of for what is wrong with it: its target is
not declared, its target does not stand behind its router, or its text cannot be read.
-/

namespace TriageFlow

namespace Definition

variable {d : Definition} {registered : String → Bool} {p i : Nat} {router : String}
  {rule : RouteRule}

/-- A warning is that of a rule of a router. -/
theorem mem_warnings_iff {w : Warning} : w ∈ d.warnings ↔ ∃ p n rules i rule,
    d.nodes[p]? = some n ∧ n.kind = .route rules ∧ rules[i]? = some rule ∧
      w ∈ d.warningsOfRule p n.id i rule := by
  unfold warnings
  simp only [List.mem_flatten, List.mem_mapIdx]
  constructor
  · rintro ⟨_, ⟨p, hp, rfl⟩, hmem⟩
    unfold warningsOfNode at hmem
    split at hmem
    · next rules hkind =>
      simp only [List.mem_flatten, List.mem_mapIdx] at hmem
      obtain ⟨_, ⟨i, hi, rfl⟩, hmem⟩ := hmem
      exact ⟨p, d.nodes[p], rules, i, rules[i], List.getElem?_eq_getElem hp, hkind,
        List.getElem?_eq_getElem hi, hmem⟩
    · simp at hmem
  · rintro ⟨p, n, rules, i, rule, hn, hkind, hrule, hmem⟩
    obtain ⟨hp, rfl⟩ := List.getElem?_eq_some_iff.mp hn
    obtain ⟨hi, rfl⟩ := List.getElem?_eq_some_iff.mp hrule
    refine ⟨_, ⟨p, hp, rfl⟩, ?_⟩
    unfold warningsOfNode
    rw [hkind]
    simp only [List.mem_flatten, List.mem_mapIdx]
    exact ⟨_, ⟨i, hi, rfl⟩, hmem⟩

/-! ## The warnings of one rule -/

/-- A rule is warned of as invalid for a fault in the reading of its condition. -/
theorem invalidRule_mem_warningsOfRule_iff {node : String} {index : Nat} {fault : Fault} :
    .invalidRule node index fault ∈ d.warningsOfRule p router i rule ↔
      node = router ∧ index = i ∧ rule.condition.predicate = .error fault := by
  unfold warningsOfRule
  rw [List.mem_append, or_iff_left]
  · cases rule.condition with
    | tree q => simp [Condition.predicate]
    | text source =>
      have hpredicate : (Condition.text source).predicate =
          (Predicate.ofText source).mapError .ruleText := rfl
      cases hread : Predicate.ofText source with
      | ok q =>
        have hok : (Condition.text source).predicate = .ok q := by rw [hpredicate, hread]; rfl
        simp [hok, hread]
      | error cause =>
        have herror : (Condition.text source).predicate = .error (.ruleText cause) := by
          rw [hpredicate, hread]
          rfl
        simp [herror, hread, eq_comm]
  · -- What is wrong with the target of the rule is told by other warnings.
    split
    · simp
    · split
      · simp
      · simp

theorem dangling_mem_warningsOfRule_iff {node target : String} :
    .dangling node target ∈ d.warningsOfRule p router i rule ↔
      node = router ∧ target = rule.target ∧ d.indexOf? rule.target = none := by
  unfold warningsOfRule
  rw [List.mem_append, or_iff_right]
  · cases d.indexOf? rule.target with
    | none => simp
    | some q =>
      dsimp only
      split
      · simp
      · simp
  · split
    · split
      · simp
      · simp
    · simp

theorem backward_mem_warningsOfRule_iff {node target : String} :
    .backward node target ∈ d.warningsOfRule p router i rule ↔
      node = router ∧ target = rule.target ∧ ∃ q ≤ p, d.indexOf? rule.target = some q := by
  unfold warningsOfRule
  rw [List.mem_append, or_iff_right]
  · cases d.indexOf? rule.target with
    | none => simp
    | some q =>
      dsimp only
      split
      · next hle => simp [hle]
      · next hle => simpa using fun _ _ => Nat.lt_of_not_le hle
  · split
    · split
      · simp
      · simp
    · simp

/-! ## The warnings of a definition -/

/-- A warning of a dangling target tells of a rule whose target is not declared. -/
theorem dangling_mem_warnings {n : Node} {rules : List RouteRule} (hn : n ∈ d.nodes)
    (hkind : n.kind = .route rules) (hrule : rule ∈ rules)
    (hmissing : d.declares rule.target = false) : .dangling n.id rule.target ∈ d.warnings := by
  obtain ⟨p, hp⟩ := List.mem_iff_getElem?.mp hn
  obtain ⟨i, hi⟩ := List.mem_iff_getElem?.mp hrule
  have hnone : d.indexOf? rule.target = none := by simpa [declares] using hmissing
  exact mem_warnings_iff.mpr
    ⟨p, n, rules, i, rule, hp, hkind, hi, dangling_mem_warningsOfRule_iff.mpr ⟨rfl, rfl, hnone⟩⟩

/-- A warning of a backward jump tells of a rule of a router whose target is the router itself or
a node before it. -/
theorem backward_mem_warnings_iff {node target : String} :
    .backward node target ∈ d.warnings ↔ ∃ p n rules, d.nodes[p]? = some n ∧
      n.kind = .route rules ∧ n.id = node ∧ (∃ rule ∈ rules, rule.target = target) ∧
        ∃ q ≤ p, d.indexOf? target = some q := by
  rw [mem_warnings_iff]
  simp only [backward_mem_warningsOfRule_iff]
  constructor
  · rintro ⟨p, n, rules, i, rule, hn, hkind, hrule, rfl, rfl, hback⟩
    exact ⟨p, n, rules, hn, hkind, rfl, ⟨rule, List.mem_of_getElem? hrule, rfl⟩, hback⟩
  · rintro ⟨p, n, rules, hn, hkind, rfl, ⟨rule, hrule, rfl⟩, hback⟩
    obtain ⟨i, hi⟩ := List.mem_iff_getElem?.mp hrule
    exact ⟨p, n, rules, i, rule, hn, hkind, hi, rfl, rfl, hback⟩

/-- Where ids are distinct, a router and an index tell which rule a warning calls invalid. -/
theorem Valid.invalidRule_mem_warnings_iff (hd : d.Valid registered) {n : Node}
    {rules : List RouteRule} (hn : n ∈ d.nodes) (hkind : n.kind = .route rules)
    (hrule : rules[i]? = some rule) {fault : Fault} :
    .invalidRule n.id i fault ∈ d.warnings ↔ rule.condition.predicate = .error fault := by
  rw [mem_warnings_iff]
  simp only [invalidRule_mem_warningsOfRule_iff]
  constructor
  · rintro ⟨p, m, others, j, other, hm, hmkind, hother, hid, rfl, hfault⟩
    obtain rfl := hd.node_inj hn (List.mem_of_getElem? hm) hid
    rw [hkind] at hmkind
    cases hmkind
    rw [hrule] at hother
    cases hother
    exact hfault
  · intro hfault
    obtain ⟨p, hp⟩ := List.mem_iff_getElem?.mp hn
    exact ⟨p, n, rules, i, rule, hp, hkind, hrule, rfl, rfl, hfault⟩

end Definition

end TriageFlow
