import TriageFlow.Proofs.ShortCircuit
import TriageFlow.Proofs.Spelling

/-!
Rule texts put together from rule texts. In parentheses a text stands for what it spells
(`Spells.grouped`). Without them, `||` goes on with the alternatives of the first text: the tokens
behind it are read as if those stood before them (`run_behind`), so the whole is the list of the
alternatives of both texts (`ofTokens?_or`). In every context the texts test as the connective does
that stands between them (`connected_texts_test`).
-/

namespace TriageFlow.Rule

/-! ## Alternatives before a group -/

/-- A group with alternatives before its own, the last one first. -/
def Group.behind (before : List Predicate) (g : Group) : Group :=
  { g with alternatives := g.alternatives ++ before }

/-- Open groups, the innermost first, with alternatives before those of the outermost. -/
def behindOutermost (before : List Predicate) : List Group → List Group
  | [] => []
  | [g] => [g.behind before]
  | g :: around :: outer => g :: behindOutermost before (around :: outer)

namespace Progress

/-- The same progress with alternatives before those of the outermost group. -/
def behind (before : List Predicate) : Progress → Progress
  | ⟨[], group, operand⟩ => ⟨[], group.behind before, operand⟩
  | ⟨around :: outer, group, operand⟩ =>
    ⟨behindOutermost before (around :: outer), group, operand⟩

variable {s s' : Progress} {token : Token}

/-- What is read does not depend on the alternatives before it. -/
theorem step_behind (h : s.step token = some s') (before : List Predicate) :
    (s.behind before).step token = some (s'.behind before) := by
  rw [step_eq_some_iff] at h ⊢
  cases h with
  | @negation outer => cases outer <;> exact .negation
  | @opening outer => cases outer <;> exact .opening
  | @leaf outer _ _ _ hleaf => cases outer <;> exact .leaf hleaf
  | @comparison outer _ _ _ _ hop hleft => cases outer <;> exact .comparison hop hleft
  | @and outer => cases outer <;> exact .and
  | @or outer => cases outer <;> exact .or
  | @closing outer => cases outer <;> exact .closing

theorem run_behind {tokens : List Token} (h : s.run tokens = some s') (before : List Predicate) :
    (s.behind before).run tokens = some (s'.behind before) :=
  run_map (f := behind before) (fun h => step_behind h before) h

end Progress

/-! ## Two texts and a connective -/

variable {first second : List Token} {p q : Predicate} {ps qs : List Predicate} {cs ds : List Char}

/-- The alternatives of a predicate: those of a disjunction, or the predicate itself. -/
def Alternatives (p : Predicate) (ps : List Predicate) : Prop := ps = [p] ∨ p = .any ps

theorem Alternatives.test_eq (h : Alternatives p ps) (c : Context) :
    p.test c = Predicate.someHolds c ps := by
  rcases h with rfl | rfl
  · rw [Predicate.someHolds_singleton]
  · rw [Predicate.test_any]

theorem Group.alternatives_finished (g : Group) (last : Predicate) :
    Alternatives (g.finished last) (g.alternatives.reverse ++ [g.conjoined last]) := by
  unfold finished gather
  cases g.alternatives with
  | nil => exact .inl rfl
  | cons _ _ => exact .inr rfl

/-- Tokens on both sides of `||` are read as the alternatives of both. -/
theorem ofTokens?_or (hp : ofTokens? first = some p) (hq : ofTokens? second = some q) :
    ∃ ps qs, Alternatives p ps ∧ Alternatives q qs ∧
      ofTokens? (first ++ .or :: second) = some (.any (ps ++ qs)) := by
  obtain ⟨group, last, hrun, rfl⟩ := ofTokens?_eq_some_iff.mp hp
  obtain ⟨group', last', hrun', rfl⟩ := ofTokens?_eq_some_iff.mp hq
  refine ⟨_, _, group.alternatives_finished last, group'.alternatives_finished last', ?_⟩
  let before := group.conjoined last :: group.alternatives
  refine ofTokens?_eq_some_iff.mpr ⟨group'.behind before, last', ?_, ?_⟩
  · calc Progress.start.run (first ++ .or :: second)
        = (Progress.start.behind before).run second := by
          rw [Progress.run_append, hrun]
          rfl
      _ = some ⟨[], group'.behind before, some last'⟩ := Progress.run_behind hrun' before
  · have hsome : ¬(group'.behind before).alternatives.isEmpty = true := by
      simp [Group.behind, before]
    rw [Group.finished, Group.gather, if_neg hsome]
    simp [Group.behind, Group.conjoined, Group.compared, before]

namespace Spells

theorem grouped (h : Spells cs p) : Spells (Rule.grouped cs) p := by
  obtain ⟨tokens, hlexes, hread, hfinite⟩ := h
  refine ⟨Token.grouped tokens, ?_, (isOperand_grouped hread).ofTokens?,
    (badNumeral?_grouped tokens).trans hfinite⟩
  have hgroup := lexes_grouped hlexes .done
  rwa [List.append_nil, List.append_nil] at hgroup

/-- Texts with `||` between them spell the alternatives of both. -/
theorem disjoined (hp : Spells cs p) (hq : Spells ds q) :
    ∃ ps qs, Alternatives p ps ∧ Alternatives q qs ∧
      Spells (cs ++ " || ".toList ++ ds) (.any (ps ++ qs)) := by
  obtain ⟨tokens, hlexes, hread, hfinite⟩ := hp
  obtain ⟨tokens', hlexes', hread', hfinite'⟩ := hq
  obtain ⟨ps, qs, hps, hqs, hor⟩ := ofTokens?_or hread hread'
  refine ⟨ps, qs, hps, hqs, tokens ++ .or :: tokens', ?_, hor, ?_⟩
  · have hsecond : Lexes (" || ".toList ++ ds) (.or :: tokens') :=
      .blank rfl (.token rfl (.blank rfl hlexes'))
    rw [List.append_assoc]
    exact hlexes.append hsecond (Delimited.cons_iff.mpr rfl)
  · have hconnective : ∀ numeral, Token.or ≠ .number numeral := nofun
    rw [badNumeral?_append, badNumeral?_cons hconnective, hfinite, hfinite', Option.none_or]

end Spells

/-- Rule texts that are accepted can be put together. If the whole does not nest too deeply, it is
accepted too, and in every context it tests as its connective says: the second text of `||` counts
where the first does not hold, that of `&&` where the first holds, and what fails first is the
failure of the whole. A text in parentheses is read as the text. -/
theorem connected_texts_test {a b : String} {p q : Predicate}
    (ha : Predicate.ofText a = .ok p) (hb : Predicate.ofText b = .ok q) :
    (nestingOf (a ++ " || " ++ b).toList ≤ ruleNestingLimit →
      ∃ r, Predicate.ofText (a ++ " || " ++ b) = .ok r ∧
        ∀ c, r.test c = eitherHolds (p.test c) (q.test c)) ∧
    (nestingOf ("(" ++ a ++ ") && (" ++ b ++ ")").toList ≤ ruleNestingLimit →
      ∃ r, Predicate.ofText ("(" ++ a ++ ") && (" ++ b ++ ")") = .ok r ∧
        ∀ c, r.test c = bothHold (p.test c) (q.test c)) ∧
    (nestingOf ("!(" ++ a ++ ")").toList ≤ ruleNestingLimit →
      ∃ r, Predicate.ofText ("!(" ++ a ++ ")") = .ok r ∧
        ∀ c, r.test c = (p.test c).map (!·)) ∧
    (nestingOf ("(" ++ a ++ ")").toList ≤ ruleNestingLimit →
      Predicate.ofText ("(" ++ a ++ ")") = .ok p) := by
  have hp := (ofText_eq_ok_iff.mp ha).2
  have hq := (ofText_eq_ok_iff.mp hb).2
  refine ⟨fun hdepth => ?_, fun hdepth => ?_, fun hdepth => ?_, fun hdepth => ?_⟩
  · obtain ⟨ps, qs, hps, hqs, hspells⟩ := hp.disjoined hq
    refine ⟨.any (ps ++ qs), ofText_eq_ok_iff.mpr ⟨hdepth, ?_⟩, fun c => ?_⟩
    · rwa [String.toList_append, String.toList_append]
    · rw [Predicate.test_any, Predicate.someHolds_append, ← hps.test_eq, ← hqs.test_eq]
  · have hgap : ∀ c ∈ [' '], isBlank c = true := List.forall_mem_singleton.mpr rfl
    have hspells := Spells.joined .all hgap hp (.cons hq .nil) nofun
    refine ⟨.all [p, q], ofText_eq_ok_iff.mpr ⟨hdepth, ?_⟩, fun c => ?_⟩
    · simpa [Rule.grouped, between, Connective.sign, Connective.predicate] using hspells
    · rw [Predicate.test_all, Predicate.allHold_pair]
  · refine ⟨.not p, ofText_eq_ok_iff.mpr ⟨hdepth, ?_⟩, fun c => Predicate.test_not⟩
    simpa [Rule.grouped] using hp.negated
  · refine ofText_eq_ok_iff.mpr ⟨hdepth, ?_⟩
    simpa [Rule.grouped] using hp.grouped

/-- A text with alternatives of its own, and one that is a negation. -/
theorem urgent_texts_connected :
    let p : Predicate := .any [.field ⟨"urgent", []⟩,
      .compare .equal (.field ⟨"vip", []⟩) (.literal (.bool true))]
    let q : Predicate := .not (.field ⟨"muted", []⟩)
    Predicate.ofText "urgent||vip == true" = .ok p ∧ Predicate.ofText " !muted" = .ok q ∧
    (∃ r, Predicate.ofText "urgent||vip == true ||  !muted" = .ok r ∧
      ∀ c, r.test c = eitherHolds (p.test c) (q.test c)) ∧
    (∃ r, Predicate.ofText "(urgent||vip == true) && ( !muted)" = .ok r ∧
      ∀ c, r.test c = bothHold (p.test c) (q.test c)) ∧
    (∃ r, Predicate.ofText "!(urgent||vip == true)" = .ok r ∧
      ∀ c, r.test c = (p.test c).map (!·)) ∧
    Predicate.ofText "(urgent||vip == true)" = .ok p := by
  have ha : Predicate.ofText "urgent||vip == true" = .ok (.any [.field ⟨"urgent", []⟩,
      .compare .equal (.field ⟨"vip", []⟩) (.literal (.bool true))]) := rfl
  have hb : Predicate.ofText " !muted" = .ok (.not (.field ⟨"muted", []⟩)) := rfl
  obtain ⟨hor, hand, hnot, hgroup⟩ := connected_texts_test ha hb
  exact ⟨ha, hb, hor (by decide +kernel), hand (by decide +kernel), hnot (by decide +kernel),
    hgroup (by decide +kernel)⟩

end TriageFlow.Rule
