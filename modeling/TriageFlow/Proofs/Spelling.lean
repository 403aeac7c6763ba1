import TriageFlow.Proofs.Reading
import TriageFlow.Proofs.Words
import TriageFlow.Rule.Evaluation

/-!
Rule texts that spell predicates. A text spells a predicate if it is read as that predicate, its
nesting apart (`ofText_eq_ok_iff`). Texts in parentheses, with an operator before or between them,
spell what the operator makes of what they spell, whatever stands in the parentheses
(`Spells.negated`, `Spells.compared`, `Spells.joined`). So every phrase, a predicate whose numbers
are written as numerals, has a text that is read as its predicate (`Phrase.ofText_text`).
-/

namespace TriageFlow

/-- How a comparison is written. -/
def Comparison.sign : Comparison → List Char
  | equal => "==".toList
  | notEqual => "!=".toList
  | greater => ">".toList
  | greaterOrEqual => ">=".toList
  | less => "<".toList
  | lessOrEqual => "<=".toList
  | contains => "contains".toList

namespace Rule

variable {cs rest gap : List Char} {tokens more : List Token} {token : Token} {p q : Predicate}

/-- The token of a comparison. `contains` is a word like others until an operand stands before
it. -/
def Token.ofComparison : Comparison → Token
  | .contains => .path "contains".toList
  | op => .compare op

theorem next?_sign (op : Comparison) : next? op.sign = some (.ofComparison op, []) := by
  cases op <;> decide

theorem comparisonOf_ofComparison (op : Comparison) :
    comparisonOf (.ofComparison op) = some op := by
  cases op <;> decide

/-- How a connective is written. -/
def Connective.sign : Connective → List Char
  | all => "&&".toList
  | any => "||".toList

theorem Connective.next?_sign (c : Connective) : next? c.sign = some (c.token, []) := by
  cases c <;> rfl

/-! ## Texts in parentheses -/

/-- A text in parentheses. -/
def grouped (cs : List Char) : List Char := '(' :: (cs ++ [')'])

/-- An operator with blanks on both sides. -/
def between (gap sign : List Char) : List Char := gap ++ (sign ++ gap)

theorem delimited_grouped : Delimited (grouped cs ++ rest) := Delimited.opening

theorem lexes_grouped (h : Lexes cs tokens) (hrest : Lexes rest more) :
    Lexes (grouped cs ++ rest) (Token.grouped tokens ++ more) := by
  have hclosing : Lexes (')' :: rest) (.closing :: more) := .token rfl hrest
  have hcs : Lexes ('(' :: (cs ++ ')' :: rest)) (.opening :: (tokens ++ .closing :: more)) :=
    .token rfl (h.append hclosing Delimited.closing)
  simpa [grouped, Token.grouped] using hcs

theorem lexes_between {sign : List Char} (hgap : ∀ c ∈ gap, isBlank c = true)
    (hsign : next? sign = some (token, [])) (h : Lexes rest more) (hrest : Delimited rest) :
    Lexes (between gap sign ++ rest) (token :: more) := by
  have hsign : next? (sign ++ (gap ++ rest)) = some (token, gap ++ rest) :=
    next?_append hsign (hrest.blanks hgap)
  simpa [between] using (Lexes.token hsign (h.blanks hgap)).blanks hgap

/-- A text is read as a predicate, its nesting apart. -/
def Spells (cs : List Char) (p : Predicate) : Prop :=
  ∃ tokens, Lexes cs tokens ∧ ofTokens? tokens = some p ∧ badNumeral? tokens = none

theorem ofText_eq_ok_iff {source : String} :
    Predicate.ofText source = .ok p ↔
      nestingOf source.toList ≤ ruleNestingLimit ∧ Spells source.toList p := by
  constructor
  · intro h
    simp only [Predicate.ofText] at h
    split at h
    · cases h
    rename_i hdepth
    split at h
    · cases h
    rename_i tokens htokens
    split at h
    · cases h
    rename_i p' hread
    split at h
    · cases h
    rename_i hfinite
    obtain rfl := Except.ok.inj h
    exact ⟨Nat.le_of_not_lt hdepth, tokens, tokens?_eq_some_iff.mp htokens, hread, hfinite⟩
  · rintro ⟨hdepth, tokens, hlexes, hread, hfinite⟩
    simp only [Predicate.ofText, if_neg (Nat.not_lt.mpr hdepth),
      tokens?_eq_some_iff.mpr hlexes, hread, hfinite]

namespace Spells

theorem of_next? (hnext : next? cs = some (token, [])) (hread : ofTokens? [token] = some p)
    (hfinite : badNumeral? [token] = none) : Spells cs p :=
  ⟨[token], .single hnext, hread, hfinite⟩

theorem string (content : String) :
    Spells (quoted content.toList) (.literal (.string content)) := by
  refine of_next? (next?_quoted content.toList) ?_ rfl
  calc ofTokens? [.string content.toList]
      = some (.literal (.string (String.ofList content.toList))) := rfl
    _ = some (.literal (.string content)) := by rw [String.ofList_toList]

theorem number (h : IsNumeral cs) (hfinite : (Decimal.floatOfNumeral cs).isFinite = true) :
    Spells cs (.literal (.float (Decimal.floatOfNumeral cs))) :=
  of_next? (next?_of_isNumeral h) rfl (by simp [badNumeral?, hfinite])

theorem field {path : Path} (h : Nameable path) : Spells path.toText.toList (.field path) := by
  refine of_next? h.next? ?_ rfl
  calc ofTokens? [.path path.toText.toList]
      = some (.field (.ofText (String.ofList path.toText.toList))) := rfl
    _ = some (.field path) := by rw [String.ofList_toList, h.ofText_toText]

theorem negated (h : Spells cs p) : Spells ('!' :: grouped cs) (.not p) := by
  obtain ⟨tokens, hlexes, hread, hfinite⟩ := h
  refine ⟨.not :: Token.grouped tokens, ?_, ofTokens?_not (isOperand_grouped hread), ?_⟩
  · have hgroup := lexes_grouped hlexes .done
    rw [List.append_nil, List.append_nil] at hgroup
    exact .token rfl hgroup
  · exact (badNumeral?_grouped tokens).trans hfinite

theorem compared (op : Comparison) (hgap : ∀ c ∈ gap, isBlank c = true) {left right : List Char}
    (hleft : Spells left p) (hright : Spells right q) :
    Spells (grouped left ++ (between gap op.sign ++ grouped right)) (.compare op p q) := by
  obtain ⟨tokens, hlexes, hread, hfinite⟩ := hleft
  obtain ⟨tokens', hlexes', hread', hfinite'⟩ := hright
  refine ⟨Token.grouped tokens ++ .ofComparison op :: Token.grouped tokens', ?_,
    ofTokens?_compare (comparisonOf_ofComparison op) (isOperand_grouped hread)
      (isOperand_grouped hread'), ?_⟩
  · have hgroup := lexes_grouped hlexes' .done
    have hright := lexes_between hgap (next?_sign op) hgroup delimited_grouped
    rw [List.append_nil, List.append_nil] at hright
    exact lexes_grouped hlexes hright
  · have hop (numeral : List Char) : Token.ofComparison op ≠ .number numeral := by
      cases op <;> nofun
    rw [badNumeral?_append, badNumeral?_cons hop, badNumeral?_grouped, badNumeral?_grouped,
      hfinite, hfinite', Option.none_or]

theorem exists_operands (c : Connective) (hgap : ∀ c ∈ gap, isBlank c = true)
    {texts : List (List Char)} {ps : List Predicate} (h : List.Forall₂ Spells texts ps) :
    ∃ operands, List.Forall₂ IsOperand operands ps ∧
      Lexes (texts.flatMap fun cs => between gap c.sign ++ grouped cs)
        (operands.flatMap (c.token :: ·)) ∧
      badNumeral? (operands.flatMap (c.token :: ·)) = none := by
  induction h with
  | nil => exact ⟨[], .nil, .done, rfl⟩
  | @cons cs p texts ps hp _ ih =>
    obtain ⟨tokens, hlexes, hread, hfinite⟩ := hp
    obtain ⟨operands, hoperands, hothers, hfinite'⟩ := ih
    refine ⟨Token.grouped tokens :: operands, .cons (isOperand_grouped hread) hoperands, ?_, ?_⟩
    · have hgroup := lexes_grouped hlexes hothers
      have hsign := lexes_between hgap c.next?_sign hgroup delimited_grouped
      simpa only [List.flatMap_cons, List.append_assoc, List.cons_append] using hsign
    · have hconnective (numeral : List Char) : c.token ≠ .number numeral := by
        cases c <;> nofun
      rw [List.flatMap_cons, List.cons_append, badNumeral?_cons hconnective, badNumeral?_append,
        badNumeral?_grouped, hfinite, hfinite', Option.none_or]

/-- Several texts with one connective between them spell its predicate. -/
theorem joined (c : Connective) (hgap : ∀ c ∈ gap, isBlank c = true) (hfirst : Spells cs p)
    {texts : List (List Char)} {ps : List Predicate} (h : List.Forall₂ Spells texts ps)
    (hne : ps ≠ []) :
    Spells (grouped cs ++ texts.flatMap fun cs => between gap c.sign ++ grouped cs)
      (c.predicate (p :: ps)) := by
  obtain ⟨tokens, hlexes, hread, hfinite⟩ := hfirst
  obtain ⟨operands, hoperands, hothers, hfinite'⟩ := exists_operands c hgap h
  refine ⟨_, lexes_grouped hlexes hothers,
    ofTokens?_joined c (isOperand_grouped hread) hoperands hne, ?_⟩
  rw [badNumeral?_append, badNumeral?_grouped, hfinite, hfinite', Option.none_or]

end Spells

/-! ## Phrases -/

/-- A predicate that a rule text can spell: its numbers are numerals of finite floats, its paths
have names, and its connectives two operands at least. -/
inductive Phrase where
  | null
  | truth (value : Bool)
  | string (content : String)
  | number (numeral : List Char) (isNumeral : IsNumeral numeral)
      (isFinite : (Decimal.floatOfNumeral numeral).isFinite = true)
  | field (path : Path) (nameable : Nameable path)
  | compare (op : Comparison) (left right : Phrase)
  | join (connective : Connective) (first second : Phrase) (more : List Phrase)
  | not (operand : Phrase)

namespace Phrase

mutual

/-- The predicate that a phrase stands for. -/
def predicate : Phrase → Predicate
  | null => .literal .null
  | truth value => .literal (.bool value)
  | string content => .literal (.string content)
  | number numeral _ _ => .literal (.float (Decimal.floatOfNumeral numeral))
  | field path _ => .field path
  | compare op left right => .compare op left.predicate right.predicate
  | join connective first second more =>
    connective.predicate (first.predicate :: second.predicate :: predicates more)
  | not operand => .not operand.predicate

/-- The predicates of some phrases. -/
def predicates : List Phrase → List Predicate
  | [] => []
  | phrase :: phrases => phrase.predicate :: predicates phrases

end

mutual

/-- The text of a phrase: its operands in parentheses, and blanks around operators that stand
between two of them. -/
def text (gap : List Char) : Phrase → List Char
  | null => "null".toList
  | truth true => "true".toList
  | truth false => "false".toList
  | string content => quoted content.toList
  | number numeral _ _ => numeral
  | field path _ => path.toText.toList
  | compare op left right =>
    grouped (left.text gap) ++ (between gap op.sign ++ grouped (right.text gap))
  | join connective first second more =>
    grouped (first.text gap) ++ (second.text gap :: texts gap more).flatMap fun cs =>
      between gap connective.sign ++ grouped cs
  | not operand => '!' :: grouped (operand.text gap)

/-- The texts of some phrases. -/
def texts (gap : List Char) : List Phrase → List (List Char)
  | [] => []
  | phrase :: phrases => phrase.text gap :: texts gap phrases

end

mutual

/-- The text of a phrase spells its predicate. -/
theorem spells_text (hgap : ∀ c ∈ gap, isBlank c = true) :
    (phrase : Phrase) → Spells (phrase.text gap) phrase.predicate
  | null => .of_next? rfl rfl rfl
  | truth true => .of_next? rfl rfl rfl
  | truth false => .of_next? rfl rfl rfl
  | string content => .string content
  | number _ hnumeral hfinite => .number hnumeral hfinite
  | field _ hpath => .field hpath
  | compare op left right => .compared op hgap (spells_text hgap left) (spells_text hgap right)
  | join c first second more =>
    .joined c hgap (spells_text hgap first)
      (.cons (spells_text hgap second) (spells_texts hgap more)) (List.cons_ne_nil _ _)
  | not operand => .negated (spells_text hgap operand)

theorem spells_texts (hgap : ∀ c ∈ gap, isBlank c = true) :
    (phrases : List Phrase) → List.Forall₂ Spells (texts gap phrases) (predicates phrases)
  | [] => .nil
  | phrase :: phrases => .cons (spells_text hgap phrase) (spells_texts hgap phrases)

end

/-- A phrase whose text does not nest too deeply is read from it, and the text tests in every
context as the predicate does. -/
theorem ofText_text (phrase : Phrase) {gap : List Char} (hgap : ∀ c ∈ gap, isBlank c = true)
    (hdepth : nestingOf (phrase.text gap) ≤ ruleNestingLimit) :
    Predicate.ofText (String.ofList (phrase.text gap)) = .ok phrase.predicate ∧
      ∀ c, (Condition.text (String.ofList (phrase.text gap))).test c =
        (Condition.tree phrase.predicate).test c := by
  have hread : Predicate.ofText (String.ofList (phrase.text gap)) = .ok phrase.predicate := by
    rw [ofText_eq_ok_iff, String.toList_ofList]
    exact ⟨hdepth, spells_text hgap phrase⟩
  refine ⟨hread, fun c => ?_⟩
  have hsame : (Condition.text (String.ofList (phrase.text gap))).predicate =
      (Condition.tree phrase.predicate).predicate := by
    rw [Condition.predicate, hread]
    rfl
  rw [Condition.test, Condition.test, Condition.evaluate, Condition.evaluate, hsame]

/-- A connective in a connective, a string with quotes and a backslash, a numeral with a fraction
and an exponent, and a path that has the name of a comparison. -/
theorem nested_text_read_back :
    let phrase : Phrase :=
      .join .all
        (.not (.compare .equal (.field ⟨"analysis", ["intent"]⟩ (by decide))
          (.string "say \"no\" \\")))
        (.compare .greaterOrEqual (.field ⟨"score", []⟩ (by decide))
          (.number "-1.5e3".toList (by decide) rfl))
        [.join .any .null
          (.compare .contains (.string "x") (.field ⟨"contains", []⟩ (by decide))) []]
    let source := "(!((analysis.intent) == (\"say \\\"no\\\" \\\\\"))) && " ++
      "((score) >= (-1.5e3)) && ((null) || ((\"x\") contains (contains)))"
    String.ofList (phrase.text [' ']) = source ∧ nestingOf (phrase.text [' ']) = 4 ∧
      Predicate.ofText source = .ok phrase.predicate := by
  intro phrase source
  have hsource : String.ofList (phrase.text [' ']) = source := by decide +kernel
  have hdepth : nestingOf (phrase.text [' ']) = 4 := by decide +kernel
  refine ⟨hsource, hdepth, ?_⟩
  rw [← hsource]
  exact (ofText_text phrase (List.forall_mem_singleton.mpr rfl) (by rw [hdepth]; decide)).1

end Phrase

end Rule

end TriageFlow
