import TriageFlow.Proofs.Reading

/-!
The grammar of rule texts. Tokens are read as a predicate exactly if the grammar derives them
(`exists_derives_iff`). What the grammar derives is read as one part from wherever it is due
(`Derives.reads`). Conversely the tokens read so far fall apart into what is open and what is
finished, group by group (`Spelled`), and every token keeps this (`Spelled.step`).
-/

namespace TriageFlow.Rule

/-- The parts of a rule, those that bind loosest first. -/
inductive Part where
  | disjunction
  | conjunction
  | comparison
  | unary
  | primary

/-- Tokens that make a part of a rule, with the loads of the operands and groups in them. The load
of one is the number of groups around it and of negations that apply to it. -/
inductive Derives : Part → List Token → List Nat → Prop where
  | leaf {token p} : Progress.Leaf token p → Derives .primary [token] [0]
  | group {ts loads} : Derives .disjunction ts loads →
    Derives .primary (Token.grouped ts) (0 :: loads.map (· + 1))
  | primary {ts loads} : Derives .primary ts loads → Derives .unary ts loads
  | negation {ts loads} : Derives .unary ts loads →
    Derives .unary (.not :: ts) (loads.map (· + 1))
  | unary {ts loads} : Derives .unary ts loads → Derives .comparison ts loads
  | compared {left right loads loads' token op} : Derives .unary left loads →
    comparisonOf token = some op → Derives .unary right loads' →
    Derives .comparison (left ++ token :: right) (loads ++ loads')
  | comparison {ts loads} : Derives .comparison ts loads → Derives .conjunction ts loads
  | and {left right loads loads'} : Derives .conjunction left loads →
    Derives .comparison right loads' →
    Derives .conjunction (left ++ .and :: right) (loads ++ loads')
  | conjunction {ts loads} : Derives .conjunction ts loads → Derives .disjunction ts loads
  | or {left right loads loads'} : Derives .disjunction left loads →
    Derives .conjunction right loads' →
    Derives .disjunction (left ++ .or :: right) (loads ++ loads')

variable {part : Part} {tokens ts us : List Token} {loads : List Nat} {p q : Predicate}

/-! ## What is derived is read -/

/-- Tokens that are read as one operand, or as operands with operators between them, where nothing
has been read of a comparison. -/
def Part.Reads : Part → List Token → Prop
  | unary, ts | primary, ts => ∃ p, IsOperand ts p
  | _, ts => ∀ outer group, group.left = none → group.negations = 0 →
    ∃ group' p, Progress.run ⟨outer, group, none⟩ ts = some ⟨outer, group', some p⟩

theorem negate_not (k : Nat) (p : Predicate) : (Predicate.not p).negate k = p.negate (k + 1) := by
  induction k with
  | zero => rfl
  | succ k ih => rw [Predicate.negate, ih, ← Predicate.negate]

theorem isOperand_leaf {token : Token} (h : Progress.Leaf token p) : IsOperand [token] p := by
  intro ⟨outer, group, operand⟩ hoperand
  cases hoperand
  rw [Progress.run, Progress.step_eq_of_leaf h]
  rfl

theorem isOperand_not (h : IsOperand ts p) : IsOperand (.not :: ts) (.not p) := by
  intro ⟨outer, group, operand⟩ hoperand
  cases hoperand
  have hrest := h ⟨outer, { group with negations := group.negations + 1 }, none⟩ rfl
  show Progress.run ⟨outer, { group with negations := group.negations + 1 }, none⟩ ts = _
  rw [hrest, Progress.primary, Progress.primary, negate_not]

theorem Derives.reads (h : Derives part ts loads) : part.Reads ts := by
  induction h with
  | leaf hleaf => exact ⟨_, isOperand_leaf hleaf⟩
  | group _ ih =>
    obtain ⟨group, p, hrun⟩ := ih [] .fresh rfl rfl
    exact ⟨_, isOperand_grouped (ofTokens?_eq_some_iff.mpr ⟨group, p, hrun, rfl⟩)⟩
  | primary _ ih => exact ih
  | negation _ ih =>
    obtain ⟨p, hp⟩ := ih
    exact ⟨_, isOperand_not hp⟩
  | unary _ ih =>
    obtain ⟨p, hp⟩ := ih
    intro outer group _ _
    exact ⟨_, _, hp ⟨outer, group, none⟩ rfl⟩
  | @compared _ _ _ _ token op _ hop _ ih ih' =>
    obtain ⟨p, hp⟩ := ih
    obtain ⟨q, hq⟩ := ih'
    intro outer group hleft _
    let compares : Group :=
      { group with left := some (p.negate group.negations, op), negations := 0 }
    have hstep : Progress.step (Progress.primary ⟨outer, group, none⟩ p) token =
        some ⟨outer, compares, none⟩ :=
      Progress.step_eq_some_iff.mpr (.comparison hop hleft)
    refine ⟨compares, q, ?_⟩
    rw [Progress.run_append, hp ⟨outer, group, none⟩ rfl, Option.bind_some, Progress.run, hstep,
      Option.bind_some, hq ⟨outer, compares, none⟩ rfl]
    rfl
  | comparison _ ih => exact ih
  | conjunction _ ih => exact ih
  | and _ _ ih ih' =>
    intro outer group hleft hnegations
    obtain ⟨group', p, hrun⟩ := ih outer group hleft hnegations
    obtain ⟨group'', q, hrun'⟩ := ih' outer
      ⟨group'.alternatives, group'.compared p :: group'.conjuncts, none, 0⟩ rfl rfl
    refine ⟨group'', q, ?_⟩
    rw [Progress.run_append, hrun, Option.bind_some]
    exact hrun'
  | or _ _ ih ih' =>
    intro outer group hleft hnegations
    obtain ⟨group', p, hrun⟩ := ih outer group hleft hnegations
    obtain ⟨group'', q, hrun'⟩ := ih' outer
      ⟨group'.conjoined p :: group'.alternatives, [], none, 0⟩ rfl rfl
    refine ⟨group'', q, ?_⟩
    rw [Progress.run_append, hrun, Option.bind_some]
    exact hrun'

/-- What the grammar derives is a predicate. -/
theorem Derives.exists_ofTokens? (h : Derives .disjunction tokens loads) :
    ∃ p, ofTokens? tokens = some p := by
  obtain ⟨group, p, hrun⟩ := h.reads [] .fresh rfl rfl
  exact ⟨_, ofTokens?_eq_some_iff.mpr ⟨group, p, hrun, rfl⟩⟩

/-! ## What is read is derived -/

/-- Tokens that the grammar derives. -/
def Derivable (part : Part) (tokens : List Token) : Prop := ∃ loads, Derives part tokens loads

/-- Nothing, or a part and a separator behind it. -/
def Follows (part : Part) (separator : Token) (ts : List Token) : Prop :=
  ts = [] ∨ ∃ us, Derivable part us ∧ ts = us ++ [separator]

/-- Nothing, or the left side of a comparison and its operator. -/
def IsSide (left : Option (Predicate × Comparison)) (ts : List Token) : Prop :=
  (left = none ∧ ts = []) ∨ (left ≠ none ∧
    ∃ us token op, Derivable .unary us ∧ comparisonOf token = some op ∧ ts = us ++ [token])

/-- The tokens of a group up to the operand that stands or is due next, its negations apart. -/
def Begun (g : Group) (ts : List Token) : Prop :=
  ∃ ors ands side, ts = ors ++ (ands ++ side) ∧ Follows .disjunction .or ors ∧
    Follows .conjunction .and ands ∧ IsSide g.left side

/-- The tokens of groups that are open around another, the innermost group first. -/
inductive Around : List Group → List Token → Prop where
  | nil : Around [] []
  | cons {g outer ts us} : Around outer ts → Begun g us →
    Around (g :: outer) (ts ++ us ++ List.replicate g.negations .not ++ [.opening])

/-- The tokens that have been read, up to where an operand is due or stands. -/
inductive Spelled : Progress → List Token → Prop where
  | due {outer g tokens ts us} (htokens : tokens = ts ++ us ++ List.replicate g.negations .not)
    (houter : Around outer ts) (hgroup : Begun g us) : Spelled ⟨outer, g, none⟩ tokens
  | stands {outer g p tokens ts us vs} (htokens : tokens = ts ++ us ++ vs)
    (houter : Around outer ts) (hgroup : Begun g us) (hoperand : Derivable .unary vs)
    (hnegations : g.negations = 0) : Spelled ⟨outer, g, some p⟩ tokens

variable {g : Group} {ors ands side : List Token}

theorem derivable_negated (h : Derivable .primary ts) (k : Nat) :
    Derivable .unary (List.replicate k .not ++ ts) := by
  induction k with
  | zero =>
    obtain ⟨loads, hloads⟩ := h
    exact ⟨loads, .primary hloads⟩
  | succ k ih =>
    obtain ⟨loads, hloads⟩ := ih
    exact ⟨_, .negation hloads⟩

theorem IsSide.compared {left : Option (Predicate × Comparison)} (h : IsSide left side)
    (hts : Derivable .unary ts) : Derivable .comparison (side ++ ts) := by
  obtain ⟨loads, hloads⟩ := hts
  obtain ⟨-, hside⟩ | ⟨-, us, token, op, ⟨loads', hus⟩, hop, hside⟩ := h
  · rw [hside]
    exact ⟨loads, .unary hloads⟩
  · rw [hside, List.append_assoc]
    exact ⟨_, .compared hus hop hloads⟩

theorem Follows.conjoined (h : Follows .conjunction .and ands) (hts : Derivable .comparison ts) :
    Derivable .conjunction (ands ++ ts) := by
  obtain ⟨loads, hloads⟩ := hts
  obtain hands | ⟨us, ⟨loads', hus⟩, hands⟩ := h
  · rw [hands]
    exact ⟨loads, .comparison hloads⟩
  · rw [hands, List.append_assoc]
    exact ⟨_, .and hus hloads⟩

theorem Follows.finished (h : Follows .disjunction .or ors) (hts : Derivable .conjunction ts) :
    Derivable .disjunction (ors ++ ts) := by
  obtain ⟨loads, hloads⟩ := hts
  obtain hors | ⟨us, ⟨loads', hus⟩, hors⟩ := h
  · rw [hors]
    exact ⟨loads, .conjunction hloads⟩
  · rw [hors, List.append_assoc]
    exact ⟨_, .or hus hloads⟩

theorem begun_fresh : Begun .fresh [] :=
  ⟨[], [], [], rfl, .inl rfl, .inl rfl, .inl ⟨rfl, rfl⟩⟩

/-- A group that ends with an operand is a disjunction. -/
theorem Begun.finished (h : Begun g ts) (hus : Derivable .unary us) :
    Derivable .disjunction (ts ++ us) := by
  obtain ⟨ors, ands, side, hts, hors, hands, hside⟩ := h
  have hderivable := hors.finished (hands.conjoined (hside.compared hus))
  rw [hts]
  simpa using hderivable

theorem Begun.append_and (h : Begun g ts) (hus : Derivable .unary us)
    {alternatives conjuncts : List Predicate} :
    Begun ⟨alternatives, conjuncts, none, 0⟩ (ts ++ us ++ [.and]) := by
  obtain ⟨ors, ands, side, hts, hors, hands, hside⟩ := h
  have hconjunction := hands.conjoined (hside.compared hus)
  refine ⟨ors, ands ++ (side ++ us) ++ [.and], [], ?_, hors, .inr ⟨_, hconjunction, rfl⟩,
    .inl ⟨rfl, rfl⟩⟩
  rw [hts]
  simp

theorem Begun.append_or (h : Begun g ts) (hus : Derivable .unary us)
    {alternatives : List Predicate} :
    Begun ⟨alternatives, [], none, 0⟩ (ts ++ us ++ [.or]) := by
  refine ⟨ts ++ us ++ [.or], [], [], ?_, .inr ⟨_, h.finished hus, rfl⟩, .inl rfl,
    .inl ⟨rfl, rfl⟩⟩
  simp

theorem Begun.append_comparison (h : Begun g ts) (hus : Derivable .unary us)
    (hleft : g.left = none) {token : Token} {op : Comparison} (hop : comparisonOf token = some op) :
    Begun { g with left := some (p, op) } (ts ++ us ++ [token]) := by
  obtain ⟨ors, ands, side, hts, hors, hands, hside⟩ := h
  refine ⟨ors, ands, side ++ us ++ [token], ?_, hors, hands, .inr ?_⟩
  · rw [hts]
    simp
  · obtain ⟨-, hempty⟩ | ⟨hne, -⟩ := hside
    · exact ⟨nofun, us, token, op, hus, hop, by rw [hempty, List.nil_append]⟩
    · exact absurd hleft hne

/-- Every token keeps the tokens read so far in their parts. -/
theorem Spelled.step {s s' : Progress} {token : Token} (h : Spelled s tokens)
    (hstep : s.step token = some s') : Spelled s' (tokens ++ [token]) := by
  cases Progress.step_eq_some_iff.mp hstep with
  | @negation outer group =>
    cases h with
    | due htokens houter hgroup =>
      refine .due (g := { group with negations := group.negations + 1 }) ?_ houter hgroup
      rw [htokens, List.replicate_succ', List.append_assoc]
  | @opening outer group =>
    cases h with
    | due htokens houter hgroup =>
      refine .due ?_ (.cons houter hgroup) begun_fresh
      rw [htokens]
      simp [Group.fresh]
  | @leaf outer group token p hleaf =>
    cases h with
    | due htokens houter hgroup =>
      refine .stands ?_ houter hgroup (derivable_negated ⟨_, .leaf hleaf⟩ group.negations) rfl
      rw [htokens, List.append_assoc]
  | @comparison outer group token op p hop hleft =>
    cases h with
    | stands htokens houter hgroup hoperand hnegations =>
      refine .due ?_ houter (hgroup.append_comparison hoperand hleft hop)
      rw [htokens]
      simp [hnegations]
  | @and outer group p =>
    cases h with
    | stands htokens houter hgroup hoperand hnegations =>
      refine .due ?_ houter (hgroup.append_and hoperand)
      rw [htokens]
      simp
  | @or outer group p =>
    cases h with
    | stands htokens houter hgroup hoperand hnegations =>
      refine .due ?_ houter (hgroup.append_or hoperand)
      rw [htokens]
      simp
  | @closing outer around group p =>
    cases h with
    | stands htokens houter hgroup hoperand hnegations =>
      cases houter with
      | cons houter haround =>
        obtain ⟨loads, hloads⟩ := hgroup.finished hoperand
        refine .stands ?_ houter haround (derivable_negated ⟨_, .group hloads⟩ around.negations)
          rfl
        rw [htokens]
        simp [Token.grouped]

theorem Spelled.run {s s' : Progress} (h : Spelled s tokens) (hrun : s.run ts = some s') :
    Spelled s' (tokens ++ ts) := by
  induction ts generalizing s tokens with
  | nil =>
    rw [List.append_nil, ← Option.some.inj hrun]
    exact h
  | cons token ts ih =>
    obtain ⟨t, ht, hrest⟩ := Option.bind_eq_some_iff.mp hrun
    have hrest := ih (h.step ht) hrest
    rwa [List.append_assoc] at hrest

theorem spelled_start : Spelled .start [] := .due rfl .nil begun_fresh

/-- The grammar derives what is read as a predicate, and nothing else. -/
theorem exists_derives_iff :
    (∃ loads, Derives .disjunction tokens loads) ↔ ∃ p, ofTokens? tokens = some p := by
  constructor
  · intro ⟨loads, hloads⟩
    exact hloads.exists_ofTokens?
  · intro ⟨p, hp⟩
    obtain ⟨group, last, hrun, -⟩ := ofTokens?_eq_some_iff.mp hp
    have hspelled := spelled_start.run hrun
    cases hspelled with
    | stands htokens houter hgroup hoperand _ =>
      cases houter with
      | nil =>
        rw [List.nil_append, List.nil_append] at htokens
        rw [htokens]
        exact hgroup.finished hoperand

end TriageFlow.Rule
