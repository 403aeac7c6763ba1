import TriageFlow.Proofs.Grammar
import TriageFlow.Proofs.Spelling
import TriageFlow.Proofs.TokenNesting

/-!
The count of levels against the nesting that the grammar gives a text. If every path ended the
levels of the negations before it, the count over a part would add its heaviest load and come
back to the level of the group around it (`Derives.foldl_readWith`), however many operands stand
side by side. A path without letters and digits ends none, so the count can be too high, but it is
never too low (`NestingCount.Below.read`).
-/

namespace TriageFlow.Rule

/-- The nesting of a text whose operands and groups have some loads. -/
def nesting (loads : List Nat) : Nat := loads.foldr max 0

variable {part : Part} {tokens ts us : List Token} {loads loads' : List Nat} {token : Token}
  {ends : List Char → Bool} {n n' : NestingCount}

theorem nesting_append (loads loads' : List Nat) :
    nesting (loads ++ loads') = max (nesting loads) (nesting loads') := by
  induction loads with
  | nil => exact (Nat.zero_max _).symm
  | cons load loads ih =>
    show max load (nesting (loads ++ loads')) = max (max load (nesting loads)) _
    rw [ih, Nat.max_assoc]

theorem nesting_map_succ (h : loads ≠ []) : nesting (loads.map (· + 1)) = nesting loads + 1 := by
  induction loads with
  | nil => exact absurd rfl h
  | cons load loads ih =>
    show max (load + 1) (nesting (loads.map (· + 1))) = max load (nesting loads) + 1
    by_cases hnil : loads = []
    · rw [hnil]
      show max (load + 1) 0 = max load 0 + 1
      omega
    · rw [ih hnil]
      omega

/-- Every part has an operand. -/
theorem Derives.loads_ne_nil (h : Derives part ts loads) : loads ≠ [] := by
  induction h with
  | leaf => exact List.cons_ne_nil _ _
  | group => exact List.cons_ne_nil _ _
  | negation _ ih =>
    intro hnil
    exact ih (List.map_eq_nil_iff.mp hnil)
  | primary _ ih | unary _ ih | comparison _ ih | conjunction _ ih => exact ih
  | compared _ _ _ ih _ | and _ _ ih _ | or _ _ ih _ =>
    intro hnil
    exact ih (List.append_eq_nil_iff.mp hnil).1

/-! ## The count of a part -/

namespace NestingCount

/-- The state after a token, where a given test tells the paths that end an operand. -/
def readWith (ends : List Char → Bool) (n : NestingCount) : Token → NestingCount
  | .path name => if ends name then n.leave else n
  | token => n.read token

theorem readWith_any : readWith (·.any Text.isAlphanumeric) = read := by
  funext n token
  cases token <;> rfl

/-- The state after a part of a given nesting. -/
def settle (n : NestingCount) (load : Nat) : NestingCount :=
  ⟨n.groups, n.base, max n.deepest (n.level + load)⟩

theorem settle_settle (h : n.level = n.base) (load load' : Nat) :
    (n.settle load).settle load' = n.settle (max load load') := by
  show NestingCount.mk n.groups n.base (max (max n.deepest (n.level + load)) (n.base + load')) = _
  unfold settle
  congr 1
  omega

theorem leave_eq_self (h : n.level = n.base) (hlevel : n.level ≤ n.deepest) : n.leave = n := by
  unfold leave enter
  rw [← h, Nat.max_eq_left hlevel]

/-- Where an operand has ended, an operator changes nothing. -/
theorem readWith_operator {op : Comparison} (hop : comparisonOf token = some op)
    (h : n.level = n.base) (hlevel : n.level ≤ n.deepest) : n.readWith ends token = n := by
  cases token with
  | compare => rfl
  | path name =>
    show (if ends name then n.leave else n) = n
    rw [leave_eq_self h hlevel, ite_self]
  | _ => cases hop

end NestingCount

/-- Every path that is negated ends an operand. -/
def Named (ends : List Char → Bool) (ts : List Token) : Prop :=
  ∀ name, [.not, .path name] <:+: ts → ends name = true

/-- Where a part can be counted exactly: at the level of the group around it, or behind negations
if it does not start with a path that ends no operand. -/
def Part.Awaits (ends : List Char → Bool) (n : NestingCount) (ts : List Token) : Part → Prop
  | unary | primary => n.level = n.base ∨ ∀ name rest, ts = .path name :: rest → ends name = true
  | _ => n.level = n.base

theorem Named.of_infix (h : Named ends ts) (hpart : us <:+: ts) : Named ends us := by
  intro name hname
  exact h name (hname.trans hpart)

theorem Named.left {right : List Token} (h : Named ends (ts ++ token :: right)) : Named ends ts :=
  h.of_infix (List.prefix_append ..).isInfix

theorem Named.right {left : List Token} (h : Named ends (left ++ token :: ts)) : Named ends ts :=
  h.of_infix ((List.suffix_cons ..).trans (List.suffix_append ..)).isInfix

open NestingCount

/-- A single operand comes back to the level of the group around it. -/
theorem foldl_readWith_leaf {p : Predicate} (hleaf : Progress.Leaf token p)
    (hbase : n.base ≤ n.level) (hlevel : n.level ≤ n.deepest)
    (hstart : n.level = n.base ∨ ∀ name rest, [token] = .path name :: rest → ends name = true) :
    [token].foldl (readWith ends) n = n.settle (nesting [0]) := by
  have hleave : n.leave = n.settle (nesting [0]) := by
    show NestingCount.mk n.groups n.base (max n.deepest n.base) = _
    unfold settle
    congr 1
    show max n.deepest n.base = max n.deepest (n.level + 0)
    omega
  show n.readWith ends token = _
  cases hleaf with
  | null | truth | number => exact hleave
  | string =>
    rw [← hleave]
    show NestingCount.mk n.groups n.base n.deepest = ⟨n.groups, n.base, max n.deepest n.base⟩
    congr 1
    omega
  | @path name =>
    show (if ends name then n.leave else n) = _
    obtain hsame | hends := hstart
    · rw [← hleave, leave_eq_self hsame hlevel, ite_self]
    · rw [if_pos (hends name [] rfl), hleave]

/-- Two parts with an operator between them are counted side by side. -/
theorem foldl_readWith_operator {left right : List Token} {load load' : Nat}
    (hlevel : n.level = n.base) (hdeepest : n.level ≤ n.deepest)
    (hleft : left.foldl (readWith ends) n = n.settle load)
    (hop : ∀ m : NestingCount, m.level = m.base → m.level ≤ m.deepest → m.readWith ends token = m)
    (hright : ∀ m : NestingCount, m.level = m.base → m.level ≤ m.deepest →
      right.foldl (readWith ends) m = m.settle load') :
    (left ++ token :: right).foldl (readWith ends) n = n.settle (max load load') := by
  have hsettled : (n.settle load).level ≤ (n.settle load).deepest := by
    show n.base ≤ max n.deepest (n.level + load)
    omega
  rw [List.foldl_append, hleft, List.foldl_cons, hop _ rfl hsettled, hright _ rfl hsettled,
    settle_settle hlevel]

/-- The count over a part adds its nesting to the level it starts from. -/
theorem Derives.foldl_readWith (h : Derives part ts loads) (hnamed : Named ends ts)
    {n : NestingCount} (hbase : n.base ≤ n.level) (hlevel : n.level ≤ n.deepest)
    (hstart : part.Awaits ends n ts) : ts.foldl (readWith ends) n = n.settle (nesting loads) := by
  induction h generalizing n with
  | leaf hleaf => exact foldl_readWith_leaf hleaf hbase hlevel hstart
  | @group ts loads hderives ih =>
    have hinner : Named ends ts := hnamed.of_infix ⟨[.opening], [.closing], rfl⟩
    have hnesting : nesting (0 :: loads.map (· + 1)) = nesting loads + 1 := by
      rw [← nesting_map_succ hderives.loads_ne_nil]
      exact Nat.zero_max _
    have hfold := ih hinner (n := n.openGroup) (Nat.le_refl _) (Nat.le_max_right _ _) rfl
    show (ts ++ [Token.closing]).foldl (readWith ends) n.openGroup = _
    rw [List.foldl_append, hfold, hnesting]
    show NestingCount.mk n.groups n.base
      (max (max (max n.deepest (n.level + 1)) (n.level + 1 + nesting loads)) n.base) = _
    unfold settle
    congr 1
    omega
  | primary _ ih => exact ih hnamed hbase hlevel hstart
  | @negation ts loads hderives ih =>
    have hinner : Named ends ts := hnamed.of_infix ⟨[.not], [], by simp⟩
    -- the operand starts above the base, where a path that ends nothing would leave the level
    have hhead : ∀ name rest, ts = .path name :: rest → ends name = true := by
      intro name rest hts
      exact hnamed name ⟨[], rest, by simp [hts]⟩
    have hentered : (n.enter (n.level + 1)).base ≤ n.level + 1 := Nat.le_succ_of_le hbase
    have hfold := ih hinner (n := n.enter (n.level + 1)) hentered (Nat.le_max_right _ _)
      (.inr hhead)
    show ts.foldl (readWith ends) (n.enter (n.level + 1)) = _
    rw [hfold, nesting_map_succ hderives.loads_ne_nil]
    show NestingCount.mk n.groups n.base
      (max (max n.deepest (n.level + 1)) (n.level + 1 + nesting loads)) = _
    unfold settle
    congr 1
    omega
  | unary _ ih => exact ih hnamed hbase hlevel (.inl hstart)
  | @compared left right loads loads' token op _ hop _ ih ih' =>
    rw [nesting_append]
    refine foldl_readWith_operator hstart hlevel
      (ih hnamed.left hbase hlevel (.inl hstart))
      (fun m => readWith_operator hop) ?_
    intro m hm hdeepest
    exact ih' hnamed.right hm.ge hdeepest (.inl hm)
  | comparison _ ih => exact ih hnamed hbase hlevel hstart
  | @and left right loads loads' _ _ ih ih' =>
    rw [nesting_append]
    refine foldl_readWith_operator hstart hlevel
      (ih hnamed.left hbase hlevel hstart) (fun _ _ _ => rfl) ?_
    intro m hm hdeepest
    exact ih' hnamed.right hm.ge hdeepest hm
  | conjunction _ ih => exact ih hnamed hbase hlevel hstart
  | @or left right loads loads' _ _ ih ih' =>
    rw [nesting_append]
    refine foldl_readWith_operator hstart hlevel
      (ih hnamed.left hbase hlevel hstart) (fun _ _ _ => rfl) ?_
    intro m hm hdeepest
    exact ih' hnamed.right hm.ge hdeepest hm

/-! ## Two counts side by side -/

namespace NestingCount

/-- One count below another, which has not lost a level that is open. -/
structure Below (n n' : NestingCount) : Prop where
  groups : List.Forall₂ (· ≤ ·) n.groups n'.groups
  level : n.level ≤ n'.level
  deepest : n.deepest ≤ n'.deepest
  base_le : n'.base ≤ n'.level
  level_le : n'.level ≤ n'.deepest

namespace Below

theorem headD_le {levels levels' : List Nat} (h : List.Forall₂ (· ≤ ·) levels levels') :
    levels.headD 0 ≤ levels'.headD 0 := by
  cases h with
  | nil => exact Nat.le_refl _
  | cons hle _ => exact hle

theorem base (h : n.Below n') : n.base ≤ n'.base := headD_le h.groups

theorem enter (h : n.Below n') {k k' : Nat} (hk : k ≤ k') (hbase : n'.base ≤ k') :
    (n.enter k).Below (n'.enter k') where
  groups := h.groups
  level := hk
  deepest := by
    have hdeepest := h.deepest
    show max n.deepest k ≤ max n'.deepest k'
    omega
  base_le := hbase
  level_le := Nat.le_max_right _ _

theorem leave (h : n.Below n') : n.leave.Below n'.leave := h.enter h.base (Nat.le_refl _)

theorem opening (h : n.Below n') : n.openGroup.Below n'.openGroup := by
  have hlevel : n.level + 1 ≤ n'.level + 1 := Nat.succ_le_succ h.level
  obtain ⟨-, hk, hdeepest, -, hle⟩ := h.enter hlevel (Nat.le_succ_of_le h.base_le)
  exact ⟨.cons hlevel h.groups, hk, hdeepest, Nat.le_refl _, hle⟩

theorem closing (h : n.Below n') : n.closeGroup.Below n'.closeGroup := by
  have htail : List.Forall₂ (· ≤ ·) n.groups.tail n'.groups.tail := by
    rw [← List.drop_one, ← List.drop_one]
    exact List.forall₂_drop 1 h.groups
  have hbase := headD_le htail
  have hdeepest := h.deepest
  refine ⟨htail, hbase, ?_, Nat.le_refl _, Nat.le_max_right _ _⟩
  show max n.deepest (n.groups.tail.headD 0) ≤ max n'.deepest (n'.groups.tail.headD 0)
  omega

/-- A count in which every path ends an operand stays below the count. -/
theorem read (h : n.Below n') (token : Token) :
    (n.readWith (fun _ => true) token).Below (n'.read token) := by
  cases token with
  | opening => exact h.opening
  | closing => exact h.closing
  | not => exact h.enter (Nat.succ_le_succ h.level) (Nat.le_succ_of_le h.base_le)
  | or | and | compare => exact h
  | null | truth | number => exact h.leave
  | string =>
    exact ⟨h.groups, h.base, h.deepest, Nat.le_refl _, Nat.le_trans h.base_le h.level_le⟩
  | path name =>
    show n.leave.Below (if name.any Text.isAlphanumeric then n'.leave else n')
    by_cases hends : name.any Text.isAlphanumeric = true
    · rw [if_pos hends]
      exact h.leave
    · rw [if_neg hends]
      have hbase : n.base ≤ n'.level := Nat.le_trans h.base h.base_le
      have hdeepest : n.leave.deepest ≤ n'.deepest :=
        Nat.max_le.mpr ⟨h.deepest, Nat.le_trans hbase h.level_le⟩
      exact ⟨h.groups, hbase, hdeepest, h.base_le, h.level_le⟩

theorem foldl_read (h : n.Below n') (tokens : List Token) :
    (tokens.foldl (readWith fun _ => true) n).Below (tokens.foldl NestingCount.read n') := by
  induction tokens generalizing n n' with
  | nil => exact h
  | cons token tokens ih => exact ih (h.read token)

end Below

end NestingCount

/-! ## The nesting of a text -/

theorem Derives.foldl_start (h : Derives .disjunction tokens loads) (hnamed : Named ends tokens) :
    (tokens.foldl (readWith ends) ⟨[], 0, 0⟩).deepest = nesting loads := by
  have hstart : Part.disjunction.Awaits ends ⟨[], 0, 0⟩ tokens := rfl
  rw [h.foldl_readWith hnamed (Nat.le_refl _) (Nat.le_refl _) hstart]
  show max 0 (0 + nesting loads) = nesting loads
  omega

/-- No text is counted below its nesting. -/
theorem Derives.nesting_le (h : Derives .disjunction tokens loads) :
    nesting loads ≤ (tokens.foldl NestingCount.read ⟨[], 0, 0⟩).deepest := by
  have hbelow : NestingCount.Below ⟨[], 0, 0⟩ ⟨[], 0, 0⟩ :=
    ⟨.nil, Nat.le_refl _, Nat.le_refl _, Nat.le_refl _, Nat.le_refl _⟩
  have hall : Named (fun _ => true) tokens := fun _ _ => rfl
  rw [← h.foldl_start hall]
  exact (hbelow.foldl_read tokens).deepest

/-- A text in which every negated path has a letter or a digit is counted exactly. -/
theorem Derives.nesting_eq (h : Derives .disjunction tokens loads)
    (hnamed : Named (·.any Text.isAlphanumeric) tokens) :
    (tokens.foldl NestingCount.read ⟨[], 0, 0⟩).deepest = nesting loads := by
  have hfold := h.foldl_start hnamed
  rwa [readWith_any] at hfold

/-- Only the count refuses a text for its nesting. -/
theorem exists_tooDeep_iff {source : String} :
    (∃ d, Predicate.ofText source = .error (.tooDeep d)) ↔
      ruleNestingLimit < nestingOf source.toList := by
  constructor
  · intro ⟨d, hd⟩
    by_cases hdepth : ruleNestingLimit < nestingOf source.toList
    · exact hdepth
    · simp only [Predicate.ofText, if_neg hdepth] at hd
      split at hd
      · cases hd
      · split at hd
        · cases hd
        · split at hd <;> cases hd
  · intro hdepth
    exact ⟨_, if_pos hdepth⟩

/-- A text that the grammar derives is not malformed. -/
theorem ofText_ne_malformed {source text : String} {p : Predicate}
    (hlexes : Lexes source.toList tokens) (hread : ofTokens? tokens = some p) :
    Predicate.ofText source ≠ .error (.malformed text) := by
  intro h
  simp only [Predicate.ofText, tokens?_eq_some_iff.mpr hlexes, hread] at h
  split at h
  · cases h
  · split at h <;> cases h

/-- A rule text nests as deeply as the grammar says, and is refused for it if this is above the
limit, unless a path without letters and digits is negated in it; then it can be counted deeper,
but not less deep. -/
theorem nesting_counted_as_derived {source : String} (hlexes : Lexes source.toList tokens) :
    ((∃ loads, Derives .disjunction tokens loads) ↔ ∃ p, ofTokens? tokens = some p) ∧
    ∀ loads, Derives .disjunction tokens loads →
      nesting loads ≤ nestingOf source.toList ∧
      (ruleNestingLimit < nesting loads → ∃ d, Predicate.ofText source = .error (.tooDeep d)) ∧
      (∀ text, Predicate.ofText source ≠ .error (.malformed text)) ∧
      ((∀ name, [.not, .path name] <:+: tokens → name.any Text.isAlphanumeric = true) →
        nestingOf source.toList = nesting loads ∧
        ((∃ d, Predicate.ofText source = .error (.tooDeep d)) ↔
          ruleNestingLimit < nesting loads)) := by
  refine ⟨exists_derives_iff, ?_⟩
  intro loads hloads
  obtain ⟨p, hread⟩ := hloads.exists_ofTokens?
  have hle := hloads.nesting_le
  rw [← hlexes.nestingOf_eq] at hle
  refine ⟨hle, ?_, fun text => ofText_ne_malformed hlexes hread, ?_⟩
  · intro hdeep
    exact exists_tooDeep_iff.mpr (Nat.lt_of_lt_of_le hdeep hle)
  · intro hnamed
    have heq := hloads.nesting_eq hnamed
    rw [← hlexes.nestingOf_eq] at heq
    refine ⟨heq, ?_⟩
    rw [exists_tooDeep_iff, heq]

/-- A negated group with a negation in it, a string of marks that do not nest, and a path `_` that
is not negated. -/
theorem negated_group_counted_as_derived :
    let source := "!(a || !b) && 'c!(' == _"
    let tokens : List Token := [.not, .opening, .path ['a'], .or, .not, .path ['b'], .closing, .and,
      .string ['c', '!', '('], .compare .equal, .path ['_']]
    Lexes source.toList tokens ∧ Derives .disjunction tokens [1, 2, 3, 0, 0] ∧
    nestingOf source.toList = 3 ∧ ¬∃ d, Predicate.ofText source = .error (.tooDeep d) := by
  intro source tokens
  have hlexes : Lexes source.toList tokens := tokens?_eq_some_iff.mp (by decide +kernel)
  have hinner : Derives .disjunction [.path ['a'], .or, .not, .path ['b']] [0, 1] :=
    .or (.conjunction (.comparison (.unary (.primary (.leaf .path)))))
      (.comparison (.unary (.negation (.primary (.leaf .path)))))
  have hgroup : Derives .unary (.not :: Token.grouped [.path ['a'], .or, .not, .path ['b']])
      [1, 2, 3] := .negation (.primary (.group hinner))
  have hcompared : Derives .comparison
      [.string ['c', '!', '('], .compare .equal, .path ['_']] [0, 0] :=
    .compared (.primary (.leaf .string)) rfl (.primary (.leaf .path))
  have hderives : Derives .disjunction tokens [1, 2, 3, 0, 0] :=
    .conjunction (.and (.comparison (.unary hgroup)) hcompared)
  have hnamed : ∀ name, [.not, .path name] <:+: tokens → name.any Text.isAlphanumeric = true := by
    intro name hname
    have hb : name = ['b'] := by
      simpa [tokens, List.infix_cons_iff, List.cons_prefix_cons] using hname
    rw [hb]
    decide
  obtain ⟨-, hcounts⟩ := nesting_counted_as_derived hlexes
  obtain ⟨-, -, -, hexact⟩ := hcounts _ hderives
  obtain ⟨hdepth, hrefused⟩ := hexact hnamed
  exact ⟨hlexes, hderives, hdepth, fun hdeep => absurd (hrefused.mp hdeep) (by decide)⟩

/-! ## Paths without letters -/

/-- The text of negated paths `_` side by side. -/
def bareText : Nat → List Char
  | 0 => ['!', '_']
  | n + 1 => '!' :: '_' :: ' ' :: '&' :: '&' :: ' ' :: bareText n

/-- The tokens of negated paths `_` side by side. -/
def bareTokens : Nat → List Token
  | 0 => [.not, .path ['_']]
  | n + 1 => .not :: .path ['_'] :: .and :: bareTokens n

theorem lexes_bareText (n : Nat) : Lexes (bareText n) (bareTokens n) := by
  induction n with
  | zero => exact .token rfl (.token rfl .done)
  | succ n ih => exact .token rfl (.token rfl (.blank rfl (.token rfl (.blank rfl ih))))

theorem bareTokens_succ (n : Nat) :
    bareTokens (n + 1) = bareTokens n ++ .and :: [.not, .path ['_']] := by
  induction n with
  | zero => rfl
  | succ n ih => exact congrArg (fun ts => .not :: .path ['_'] :: .and :: ts) ih

/-- However many they are, they do not nest. -/
theorem derives_bareTokens (n : Nat) :
    Derives .conjunction (bareTokens n) (List.replicate (n + 1) 1) := by
  have hclause : Derives .comparison [.not, .path ['_']] [1] :=
    .unary (.negation (.primary (.leaf .path)))
  induction n with
  | zero => exact .comparison hclause
  | succ n ih =>
    rw [List.replicate_succ', bareTokens_succ]
    exact .and ih hclause

/-- The count takes each of them for a level of its own. -/
theorem foldl_bareTokens (n k : Nat) :
    (bareTokens n).foldl NestingCount.read ⟨[], k, k⟩ = ⟨[], k + (n + 1), k + (n + 1)⟩ := by
  have hclause : ∀ k, NestingCount.read (NestingCount.read ⟨[], k, k⟩ .not) (.path ['_']) =
      ⟨[], k + 1, k + 1⟩ := by
    intro k
    show NestingCount.mk [] (k + 1) (max k (k + 1)) = ⟨[], k + 1, k + 1⟩
    congr 1
    omega
  induction n generalizing k with
  | zero => exact hclause k
  | succ n ih =>
    show (bareTokens n).foldl NestingCount.read
      (NestingCount.read (NestingCount.read ⟨[], k, k⟩ .not) (.path ['_'])) = _
    rw [hclause, ih]
    congr 1 <;> omega

theorem ofText_bareText {n : Nat} (h : ruleNestingLimit < n + 1) :
    Predicate.ofText (String.ofList (bareText n)) = .error (.tooDeep (n + 1)) := by
  have hdepth : nestingOf (String.ofList (bareText n)).toList = n + 1 := by
    rw [String.toList_ofList, (lexes_bareText n).nestingOf_eq, foldl_bareTokens]
    exact Nat.zero_add (n + 1)
  rw [← hdepth] at h ⊢
  exact if_pos h

/-- 65 of them nest one level deep and are refused. -/
theorem bare_paths_counted_too_deep :
    Lexes (bareText 64) (bareTokens 64) ∧
    Derives .disjunction (bareTokens 64) (List.replicate 65 1) ∧
    nesting (List.replicate 65 1) = 1 ∧
    Predicate.ofText (String.ofList (bareText 64)) = .error (.tooDeep 65) :=
  ⟨lexes_bareText 64, .conjunction (derives_bareTokens 64), by decide +kernel,
    ofText_bareText (by decide)⟩

end TriageFlow.Rule
