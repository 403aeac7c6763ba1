import Mathlib.Data.List.Forall2
import TriageFlow.Rule.Reader

/-!
How tokens are read as a predicate. What a single token can do is a relation of seven cases
(`Progress.step_eq_some_iff`). Tokens that spell a predicate make an operand when they stand in
parentheses (`isOperand_grouped`), whatever groups are open around them, and operands are put
together by a negation, a comparison, or several of them by one connective
(`ofTokens?_not`, `ofTokens?_compare`, `ofTokens?_joined`).
-/

namespace TriageFlow.Rule

/-! ## Runs -/

namespace Progress

theorem run_append (s : Progress) (tokens more : List Token) :
    s.run (tokens ++ more) = (s.run tokens).bind fun s => s.run more := by
  induction tokens generalizing s with
  | nil => rfl
  | cons token tokens ih =>
    simp only [List.cons_append, run]
    cases s.step token with
    | none => rfl
    | some s => exact ih s

/-- A change of progress that every step keeps is kept by every run. -/
theorem run_map {f : Progress → Progress}
    (hstep : ∀ {s s' : Progress} {token : Token}, s.step token = some s' →
      (f s).step token = some (f s'))
    {s s' : Progress} {tokens : List Token} (h : s.run tokens = some s') :
    (f s).run tokens = some (f s') := by
  induction tokens generalizing s with
  | nil =>
    obtain rfl := Option.some.inj h
    rfl
  | cons token tokens ih =>
    obtain ⟨t, ht, hrun⟩ := Option.bind_eq_some_iff.mp h
    rw [run, hstep ht, Option.bind_some, ih hrun]

/-- The operands that are single tokens. -/
inductive Leaf : Token → Predicate → Prop where
  | null : Leaf .null (.literal .null)
  | truth {b} : Leaf (.truth b) (.literal (.bool b))
  | number {numeral} :
    Leaf (.number numeral) (.literal (.float (Decimal.floatOfNumeral numeral)))
  | string {content} : Leaf (.string content) (.literal (.string (String.ofList content)))
  | path {name} : Leaf (.path name) (.field (.ofText (String.ofList name)))

/-- What a token can do: where an operand is due, negate it, open a group or be it; after an
operand, compare it, go on with a connective or close the group. -/
inductive Step : Progress → Token → Progress → Prop where
  | negation {outer group} : Step ⟨outer, group, none⟩ .not
    ⟨outer, { group with negations := group.negations + 1 }, none⟩
  | opening {outer group} : Step ⟨outer, group, none⟩ .opening ⟨group :: outer, .fresh, none⟩
  | leaf {outer group token p} : Leaf token p →
    Step ⟨outer, group, none⟩ token (primary ⟨outer, group, none⟩ p)
  | comparison {outer group token op p} : comparisonOf token = some op → group.left = none →
    Step ⟨outer, group, some p⟩ token ⟨outer, { group with left := some (p, op) }, none⟩
  | and {outer group p} : Step ⟨outer, group, some p⟩ .and
    ⟨outer, ⟨group.alternatives, group.compared p :: group.conjuncts, none, 0⟩, none⟩
  | or {outer group p} : Step ⟨outer, group, some p⟩ .or
    ⟨outer, ⟨group.conjoined p :: group.alternatives, [], none, 0⟩, none⟩
  | closing {outer around group p} : Step ⟨around :: outer, group, some p⟩ .closing
    (primary ⟨outer, around, none⟩ (group.finished p))

theorem step_eq_of_leaf {outer : List Group} {group : Group} {token : Token} {p : Predicate}
    (h : Leaf token p) :
    step ⟨outer, group, none⟩ token = some (primary ⟨outer, group, none⟩ p) := by
  cases h <;> rfl

theorem step_of_expectOperand {outer : List Group} {group : Group} {token : Token} {s : Progress}
    (h : expectOperand ⟨outer, group, none⟩ token = some s) :
    Step ⟨outer, group, none⟩ token s := by
  cases token with
  | not =>
    obtain rfl := Option.some.inj h
    exact .negation
  | opening =>
    obtain rfl := Option.some.inj h
    exact .opening
  | null | truth | number | string | path =>
    obtain rfl := Option.some.inj h
    exact .leaf (by constructor)
  | _ => cases h

theorem step_of_afterOperand {outer : List Group} {group : Group} {token : Token} {p : Predicate}
    {s : Progress} (h : afterOperand ⟨outer, group, some p⟩ p token = some s) :
    Step ⟨outer, group, some p⟩ token s := by
  unfold afterOperand at h
  cases hop : comparisonOf token with
  | some op =>
    simp only [hop] at h
    cases hleft : group.left with
    | some _ => simp [hleft] at h
    | none =>
      simp only [hleft] at h
      obtain rfl := Option.some.inj h
      exact .comparison hop hleft
  | none =>
    simp only [hop] at h
    cases token with
    | and =>
      obtain rfl := Option.some.inj h
      exact .and
    | or =>
      obtain rfl := Option.some.inj h
      exact .or
    | closing =>
      cases outer with
      | nil => cases h
      | cons around outer =>
        obtain rfl := Option.some.inj h
        exact .closing
    | _ => cases h

theorem step_eq_some_iff {s s' : Progress} {token : Token} :
    s.step token = some s' ↔ Step s token s' := by
  constructor
  · obtain ⟨outer, group, _ | p⟩ := s
    · exact step_of_expectOperand
    · exact step_of_afterOperand
  · intro h
    cases h with
    | leaf hleaf => exact step_eq_of_leaf hleaf
    | comparison hop hleft => simp [step, afterOperand, hop, hleft]
    | _ => rfl

/-- The same progress inside further groups. -/
def within (s : Progress) (around : List Group) : Progress :=
  { s with outer := s.outer ++ around }

/-- What is read does not depend on the groups around it. -/
theorem step_within {s s' : Progress} {token : Token} (h : s.step token = some s')
    (around : List Group) : (s.within around).step token = some (s'.within around) := by
  rw [step_eq_some_iff] at h ⊢
  cases h with
  | negation => exact .negation
  | opening => exact .opening
  | leaf hleaf => exact .leaf hleaf
  | comparison hop hleft => exact .comparison hop hleft
  | and => exact .and
  | or => exact .or
  | closing => exact .closing

theorem run_within {s s' : Progress} {tokens : List Token} (h : s.run tokens = some s')
    (around : List Group) : (s.within around).run tokens = some (s'.within around) :=
  run_map (f := (·.within around)) (fun h => step_within h around) h

end Progress

/-! ## Operands -/

variable {tokens first left right : List Token} {p q : Predicate}

theorem ofTokens?_eq_some_iff :
    ofTokens? tokens = some p ↔
      ∃ group last, Progress.start.run tokens = some ⟨[], group, some last⟩ ∧
        group.finished last = p := by
  unfold ofTokens?
  rw [Option.bind_eq_some_iff]
  constructor
  · rintro ⟨⟨outer, group, operand⟩, hrun, hresult⟩
    cases operand with
    | none => cases hresult
    | some last =>
      cases outer with
      | nil => exact ⟨group, last, hrun, Option.some.inj hresult⟩
      | cons _ _ => cases hresult
  · rintro ⟨group, last, hrun, rfl⟩
    exact ⟨_, hrun, rfl⟩

/-- Tokens in parentheses. -/
def Token.grouped (tokens : List Token) : List Token := .opening :: (tokens ++ [.closing])

/-- Tokens that are taken as one primary wherever an operand is due. -/
def IsOperand (tokens : List Token) (p : Predicate) : Prop :=
  ∀ s : Progress, s.operand = none → s.run tokens = some (s.primary p)

/-- What tokens spell is an operand if it stands in parentheses. -/
theorem isOperand_grouped (h : ofTokens? tokens = some p) :
    IsOperand (Token.grouped tokens) p := by
  obtain ⟨group, last, hrun, rfl⟩ := ofTokens?_eq_some_iff.mp h
  rintro ⟨outer, around, operand⟩ rfl
  calc Progress.run ⟨outer, around, none⟩ (Token.grouped tokens)
      = (Progress.start.within (around :: outer)).run (tokens ++ [.closing]) := rfl
    _ = Progress.run ⟨around :: outer, group, some last⟩ [.closing] := by
      rw [Progress.run_append, Progress.run_within hrun]
      rfl
    _ = some (Progress.primary ⟨outer, around, none⟩ (group.finished last)) := rfl

theorem IsOperand.ofTokens? (h : IsOperand tokens p) : ofTokens? tokens = some p :=
  ofTokens?_eq_some_iff.mpr ⟨.fresh, p, h .start rfl, rfl⟩

theorem ofTokens?_not (h : IsOperand tokens p) : ofTokens? (.not :: tokens) = some (.not p) :=
  ofTokens?_eq_some_iff.mpr ⟨.fresh, .not p, h ⟨[], ⟨[], [], none, 1⟩, none⟩ rfl, rfl⟩

theorem ofTokens?_compare {token : Token} {op : Comparison} (hop : comparisonOf token = some op)
    (hleft : IsOperand left p) (hright : IsOperand right q) :
    ofTokens? (left ++ token :: right) = some (.compare op p q) := by
  refine ofTokens?_eq_some_iff.mpr ⟨⟨[], [], some (p, op), 0⟩, q, ?_, rfl⟩
  calc Progress.start.run (left ++ token :: right)
      = (Progress.start.primary p).run (token :: right) := by
        rw [Progress.run_append, hleft .start rfl, Option.bind_some]
    _ = Progress.run ⟨[], ⟨[], [], some (p, op), 0⟩, none⟩ right := by
        simp only [Progress.run, Progress.step, Progress.primary, Progress.start,
          Progress.afterOperand, hop]
        rfl
    _ = some ⟨[], ⟨[], [], some (p, op), 0⟩, some q⟩ := hright _ rfl

theorem badNumeral?_cons {token : Token} (h : ∀ numeral, token ≠ .number numeral) :
    badNumeral? (token :: tokens) = badNumeral? tokens := by
  cases token with
  | number numeral => exact absurd rfl (h numeral)
  | _ => rfl

theorem badNumeral?_append (tokens more : List Token) :
    badNumeral? (tokens ++ more) = (badNumeral? tokens).or (badNumeral? more) :=
  List.findSome?_append

theorem badNumeral?_grouped (tokens : List Token) :
    badNumeral? (Token.grouped tokens) = badNumeral? tokens :=
  calc badNumeral? (Token.grouped tokens)
      = (badNumeral? tokens).or none := badNumeral?_append tokens [.closing]
    _ = badNumeral? tokens := Option.or_none

/-! ## Connectives -/

/-- The connectives of several operands. -/
inductive Connective where
  | all
  | any

namespace Connective

/-- The predicate that a connective makes of its operands. -/
def predicate : Connective → List Predicate → Predicate
  | all => .all
  | any => .any

/-- The token between two operands. -/
def token : Connective → Token
  | all => .and
  | any => .or

/-- A group of one connective, up to its next operand; the finished ones are given last first. -/
def group : Connective → List Predicate → Group
  | all, before => ⟨[], before, none, 0⟩
  | any, before => ⟨before, [], none, 0⟩

theorem finished_group (c : Connective) (before : List Predicate) (p : Predicate) :
    (c.group before).finished p = Group.gather c.predicate p before := by
  cases c with
  | all => rfl
  | any => rfl

theorem run_operand (c : Connective) (h : IsOperand tokens q) (before : List Predicate)
    (outer : List Group) :
    Progress.run ⟨outer, c.group before, some p⟩ (c.token :: tokens) =
      some ⟨outer, c.group (p :: before), some q⟩ := by
  cases c with
  | all => exact h ⟨outer, group all (p :: before), none⟩ rfl
  | any => exact h ⟨outer, group any (p :: before), none⟩ rfl

/-- One operand after the other is put behind those that are finished. -/
theorem run_operands (c : Connective) {operands : List (List Token)} {ps : List Predicate}
    (h : List.Forall₂ IsOperand operands ps) (outer : List Group) (before : List Predicate)
    (p : Predicate) :
    ∃ before' last,
      Progress.run ⟨outer, c.group before, some p⟩ (operands.flatMap (c.token :: ·)) =
        some ⟨outer, c.group before', some last⟩ ∧
      before'.reverse ++ [last] = before.reverse ++ p :: ps := by
  -- Each operand finishes the one before it, so the last one read is always apart from the rest.
  induction h generalizing before p with
  | nil => exact ⟨before, p, rfl, rfl⟩
  | @cons tokens q operands ps hq _ ih =>
    obtain ⟨before', last, hrun, hlast⟩ := ih (p :: before) q
    refine ⟨before', last, ?_, by rw [hlast]; simp⟩
    rw [List.flatMap_cons, Progress.run_append, c.run_operand hq, Option.bind_some, hrun]

end Connective

/-- Two operands and more with one connective between them are read as the list of them. -/
theorem ofTokens?_joined (c : Connective) {operands : List (List Token)} {ps : List Predicate}
    (hfirst : IsOperand first p) (h : List.Forall₂ IsOperand operands ps) (hne : ps ≠ []) :
    ofTokens? (first ++ operands.flatMap (c.token :: ·)) = some (c.predicate (p :: ps)) := by
  obtain ⟨before, last, hrun, hlast⟩ := c.run_operands h [] [] p
  refine ofTokens?_eq_some_iff.mpr ⟨c.group before, last, ?_, ?_⟩
  · rw [Progress.run_append, hfirst .start rfl, Option.bind_some]
    cases c with
    | all => exact hrun
    | any => exact hrun
  · rw [c.finished_group, Group.gather]
    -- One operand alone would be read as itself.
    cases before with
    | nil => exact absurd (List.cons.inj hlast).2.symm hne
    | cons _ _ => exact congrArg c.predicate hlast

end TriageFlow.Rule
