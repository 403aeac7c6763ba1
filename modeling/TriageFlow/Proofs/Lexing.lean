import TriageFlow.Rule.Token

/-!
How a rule text falls into tokens. `Lexes` relates a text to its tokens without counting how many
are read, and says what the reader says (`tokens?_eq_some_iff`). No token goes on past a blank or a
parenthesis: what stands before one is read as if nothing followed (`next?_append`). Texts that are
put together with parentheses and blanks therefore have the tokens of their parts, in order
(`Lexes.append`).
-/

namespace TriageFlow.Rule

/-! ## Delimiters -/

/-- A character at which every token ends, strings apart: a blank or a parenthesis. -/
def isDelimiter (c : Char) : Bool := isBlank c || c == '(' || c == ')'

/-- A text that goes on with a delimiter, if at all. -/
def Delimited (rest : List Char) : Prop := ∀ c ∈ rest.head?, isDelimiter c = true

variable {cs rest : List Char} {c d : Char}

theorem isDelimiter_iff :
    isDelimiter c = true ↔
      ((((c = ' ' ∨ c = '\t') ∨ c = '\r') ∨ c = '\n') ∨ c = '(') ∨ c = ')' := by
  simp [isDelimiter, isBlank]

theorem isDelimiter_of_isBlank (h : isBlank c = true) : isDelimiter c = true := by
  simp [isDelimiter, h]

theorem isWordChar_of_isDelimiter (h : isDelimiter c = true) : isWordChar c = false := by
  rcases isDelimiter_iff.mp h with ((((rfl | rfl) | rfl) | rfl) | rfl) | rfl <;> decide

theorem isWordChar_of_isDigit (h : c.isDigit = true) : isWordChar c = true := by
  simp [isWordChar, h]

theorem isDigit_of_isDelimiter (h : isDelimiter c = true) : c.isDigit = false := by
  cases hd : c.isDigit with
  | false => rfl
  | true => exact absurd (isWordChar_of_isDigit hd) (by simp [isWordChar_of_isDelimiter h])

/-- A text that does not go on with a digit. -/
def NoDigitAhead (rest : List Char) : Prop := ∀ c ∈ rest.head?, c.isDigit = false

theorem takeDigits_of_noDigitAhead (h : NoDigitAhead rest) : takeDigits rest = ([], rest) := by
  cases rest with
  | nil => rfl
  | cons c rest =>
    have hc : c.isDigit = false := h c rfl
    simp [takeDigits, hc]

namespace Delimited

theorem cons_iff : Delimited (c :: cs) ↔ isDelimiter c = true := by
  simp [Delimited]

theorem opening : Delimited ('(' :: cs) := cons_iff.mpr (by decide)

theorem closing : Delimited (')' :: cs) := cons_iff.mpr (by decide)

/-- Blanks in front leave a text delimited. -/
theorem blanks {gap : List Char} (hgap : ∀ c ∈ gap, isBlank c = true) (h : Delimited rest) :
    Delimited (gap ++ rest) := by
  cases gap with
  | nil => exact h
  | cons c gap => exact cons_iff.mpr (isDelimiter_of_isBlank (hgap c List.mem_cons_self))

/-- No other character comes to stand at the head of a text. -/
theorem append_ne (hrest : Delimited rest) (hd : isDelimiter d = false)
    (h : ∀ tail, cs = d :: tail → False) : ∀ tail, cs ++ rest = d :: tail → False := by
  intro tail heq
  cases cs with
  | nil =>
    rw [List.nil_append] at heq
    rw [heq, cons_iff, hd] at hrest
    cases hrest
  | cons c cs => exact h cs (congrArg (· :: cs) (List.cons.inj heq).1)

theorem wordAhead_eq_false (hrest : Delimited rest) : wordAhead rest = false := by
  cases rest with
  | nil => rfl
  | cons c rest => exact isWordChar_of_isDelimiter (cons_iff.mp hrest)

theorem wordAhead_append (hrest : Delimited rest) :
    wordAhead (cs ++ rest) = wordAhead cs := by
  cases cs with
  | nil => exact hrest.wordAhead_eq_false
  | cons c cs => rfl

theorem noDigitAhead (hrest : Delimited rest) : NoDigitAhead rest := fun c hc =>
  isDigit_of_isDelimiter (hrest c hc)

end Delimited

/-! ## Parts of words -/

/-- A way to cut a text in two that loses nothing and ends at a delimiter. -/
structure Cuts (take : List Char → List Char × List Char) : Prop where
  lossless : ∀ cs, (take cs).1 ++ (take cs).2 = cs
  append : ∀ cs {rest}, Delimited rest → take (cs ++ rest) = ((take cs).1, (take cs).2 ++ rest)

theorem Cuts.eq_append {take : List Char → List Char × List Char} {front : List Char}
    (h : Cuts take) (htake : take cs = (front, rest)) : cs = front ++ rest := by
  rw [← h.lossless cs, htake]

theorem takeDigits_cuts : Cuts takeDigits where
  lossless _ := List.takeWhile_append_dropWhile
  append cs rest hrest := by
    induction cs with
    | nil => exact takeDigits_of_noDigitAhead hrest.noDigitAhead
    | cons c cs ih =>
      simp only [takeDigits, Prod.mk.injEq] at ih ⊢
      by_cases hc : c.isDigit = true
      · simp [hc, ih]
      · simp [hc]

theorem isDigit_of_takeDigits {digits : List Char} (h : takeDigits cs = (digits, rest)) :
    ∀ c ∈ digits, c.isDigit = true := by
  obtain ⟨rfl, -⟩ := Prod.mk.inj h
  exact List.all_eq_true.mp List.all_takeWhile

theorem takeSign_cuts : Cuts takeSign where
  lossless cs := by
    fun_cases takeSign cs with
    | case1 | case2 | case3 => rfl
  append cs rest hrest := by
    fun_cases takeSign cs with
    | case1 | case2 => rfl
    | case3 _ hplus hminus =>
      rw [takeSign.eq_3 _ (hrest.append_ne rfl hplus) (hrest.append_ne rfl hminus)]

theorem takeMinus_cuts : Cuts takeMinus where
  lossless cs := by
    fun_cases takeMinus cs with
    | case1 | case2 => rfl
  append cs rest hrest := by
    fun_cases takeMinus cs with
    | case1 => rfl
    | case2 _ hminus => rw [takeMinus.eq_2 _ (hrest.append_ne rfl hminus)]

theorem takeFraction_cuts : Cuts takeFraction where
  lossless cs := by
    fun_cases takeFraction cs with
    | case1 | case3 => rfl
    | case2 cs digits rest _ hdigits =>
      exact congrArg ('.' :: ·) (takeDigits_cuts.eq_append hdigits).symm
  append cs rest hrest := by
    fun_cases takeFraction cs with
    | case1 cs others hdigits =>
      simp only [List.cons_append, takeFraction, takeDigits_cuts.append _ hrest, hdigits]
    | case2 cs digits others hne hdigits =>
      simp only [List.cons_append, takeFraction, takeDigits_cuts.append _ hrest, hdigits]
    | case3 _ hpoint => rw [takeFraction.eq_2 _ (hrest.append_ne rfl hpoint)]

theorem takeExponent_cuts : Cuts takeExponent where
  lossless cs := by
    fun_cases takeExponent cs with
    | case1 | case2 | case4 => rfl
    | case3 c cs _ sign others hsign digits others' _ hdigits =>
      rw [takeSign_cuts.eq_append hsign, takeDigits_cuts.eq_append hdigits]
      simp
  append cs rest hrest := by
    fun_cases takeExponent cs with
    | case1 =>
      cases rest with
      | nil => rfl
      | cons c rest =>
        have hc : ¬(c = 'e' ∨ c = 'E') := by
          rintro (rfl | rfl) <;> exact absurd (Delimited.cons_iff.mp hrest) (by decide)
        simp only [List.nil_append, takeExponent, if_neg hc]
    | case2 c cs hc sign others hsign others' hdigits =>
      simp only [List.cons_append, takeExponent, if_pos hc, takeSign_cuts.append _ hrest, hsign,
        takeDigits_cuts.append _ hrest, hdigits]
    | case3 c cs hc sign others hsign digits others' hne hdigits =>
      simp only [List.cons_append, takeExponent, if_pos hc, takeSign_cuts.append _ hrest, hsign,
        takeDigits_cuts.append _ hrest, hdigits]
    | case4 c cs hc => simp only [List.cons_append, takeExponent, if_neg hc]

theorem takePath_cuts : Cuts takePath where
  lossless cs := by
    fun_induction takePath cs with
    | case1 | case3 => rfl
    | case2 c cs _ name others hname ih =>
      rw [hname] at ih
      exact congrArg (c :: ·) ih
  append cs rest hrest := by
    fun_induction takePath cs with
    | case1 =>
      cases rest with
      | nil => rfl
      | cons c rest =>
        have hc := Delimited.cons_iff.mp hrest
        have hpoint : c ≠ '.' := by
          rintro rfl
          exact absurd hc (by decide)
        simp [takePath, isWordChar_of_isDelimiter hc, hpoint]
    | case2 c cs hc name others hname ih =>
      rw [hname] at ih
      simp only [List.cons_append, takePath, hrest.wordAhead_append, hc, if_true, ih]
    | case3 c cs hc =>
      simp only [List.cons_append, takePath, hrest.wordAhead_append, hc, Bool.false_eq_true,
        if_false]

/-! ## Words and strings -/

/-- The words that are no paths. -/
def keywords : List String := ["true", "false", "null"]

theorem isWordChar_of_mem_keyword {keyword : String} (h : keyword ∈ keywords) :
    ∀ c ∈ keyword.toList, isWordChar c = true := by
  have hall : ∀ keyword ∈ keywords, keyword.toList.all isWordChar = true := by decide
  exact List.all_eq_true.mp (hall keyword h)

theorem dropStart?_append {start : List Char} (hstart : ∀ c ∈ start, isWordChar c = true)
    (hrest : Delimited rest) :
    Text.dropStart? start (cs ++ rest) = (Text.dropStart? start cs).map (· ++ rest) := by
  fun_induction Text.dropStart? start cs with
  | case1 cs => rfl
  | case2 start c cs ih =>
    rw [List.cons_append, Text.dropStart?, if_pos rfl]
    exact ih fun d hd => hstart d (List.mem_cons_of_mem c hd)
  | case3 d start c cs hne => rw [List.cons_append, Text.dropStart?, if_neg hne, Option.map_none]
  | case4 d start =>
    cases rest with
    | nil => rfl
    | cons c rest =>
      have hne : d ≠ c := by
        rintro rfl
        have hd := hstart d List.mem_cons_self
        rw [isWordChar_of_isDelimiter (Delimited.cons_iff.mp hrest)] at hd
        cases hd
      rw [List.nil_append, Text.dropStart?, if_neg hne, Option.map_none]

theorem takeKeyword?_eq_some_iff {keyword : String} :
    takeKeyword? keyword cs = some rest ↔
      cs = keyword.toList ++ rest ∧ wordAhead rest = false := by
  constructor
  · intro h
    unfold takeKeyword? at h
    split at h
    · rename_i rest' hdrop
      split at h
      · cases h
      · rename_i hword
        obtain rfl := Option.some.inj h
        exact ⟨Text.dropStart?_eq_some_iff.mp hdrop, Bool.not_eq_true _ ▸ hword⟩
    · cases h
  · rintro ⟨hcs, hword⟩
    rw [takeKeyword?, Text.dropStart?_eq_some_iff.mpr hcs]
    simp [hword]

theorem takeKeyword?_append {keyword : String} (hkeyword : keyword ∈ keywords)
    (hrest : Delimited rest) :
    takeKeyword? keyword (cs ++ rest) = (takeKeyword? keyword cs).map (· ++ rest) := by
  unfold takeKeyword?
  rw [dropStart?_append (isWordChar_of_mem_keyword hkeyword) hrest]
  cases Text.dropStart? keyword.toList cs with
  | none => rfl
  | some rest' =>
    simp only [Option.map_some, hrest.wordAhead_append]
    split <;> rfl

theorem wordAhead_of_takeKeyword? {keyword : String} (hkeyword : wordAhead keyword.toList = true)
    (h : takeKeyword? keyword cs = some rest) :
    wordAhead cs = true ∧ rest.length < cs.length := by
  obtain ⟨rfl, -⟩ := takeKeyword?_eq_some_iff.mp h
  cases hstart : keyword.toList with
  | nil =>
    rw [hstart] at hkeyword
    cases hkeyword
  | cons c cs =>
    rw [hstart] at hkeyword
    refine ⟨hkeyword, ?_⟩
    simp only [List.length_append, List.length_cons]
    omega

theorem takeNumeral?_append (hrest : Delimited rest) :
    takeNumeral? (cs ++ rest) =
      (takeNumeral? cs).map fun (numeral, others) => (numeral, others ++ rest) := by
  simp only [takeNumeral?, takeMinus_cuts.append _ hrest, takeDigits_cuts.append _ hrest]
  rcases takeDigits (takeMinus cs).2 with ⟨_ | ⟨d, digits⟩, others⟩
  · rfl
  · simp only [takeFraction_cuts.append _ hrest, takeExponent_cuts.append _ hrest,
      hrest.wordAhead_append]
    split <;> rfl

/-- The parts of a numeral that has been read. -/
theorem exists_parts_of_takeNumeral? {numeral : List Char}
    (h : takeNumeral? cs = some (numeral, rest)) :
    ∃ minus digits fraction exponent cs₁ cs₂ cs₃,
      takeMinus cs = (minus, cs₁) ∧ takeDigits cs₁ = (digits, cs₂) ∧ digits ≠ [] ∧
      takeFraction cs₂ = (fraction, cs₃) ∧ takeExponent cs₃ = (exponent, rest) ∧
      numeral = minus ++ digits ++ fraction ++ exponent := by
  rcases hminus : takeMinus cs with ⟨minus, cs₁⟩
  rcases hdigits : takeDigits cs₁ with ⟨_ | ⟨d, digits⟩, cs₂⟩
  · simp [takeNumeral?, hminus, hdigits] at h
  rcases hfraction : takeFraction cs₂ with ⟨fraction, cs₃⟩
  rcases hexponent : takeExponent cs₃ with ⟨exponent, cs₄⟩
  simp only [takeNumeral?, hminus, hdigits, hfraction, hexponent] at h
  split at h
  · cases h
  obtain ⟨rfl, rfl⟩ := Prod.mk.inj (Option.some.inj h)
  exact ⟨minus, d :: digits, fraction, exponent, cs₁, cs₂, cs₃, rfl, hdigits, nofun, hfraction,
    hexponent, rfl⟩

theorem eq_append_of_takeNumeral? {numeral : List Char}
    (h : takeNumeral? cs = some (numeral, rest)) : cs = numeral ++ rest := by
  obtain ⟨minus, digits, fraction, exponent, cs₁, cs₂, cs₃, hminus, hdigits, -, hfraction,
    hexponent, rfl⟩ := exists_parts_of_takeNumeral? h
  rw [takeMinus_cuts.eq_append hminus, takeDigits_cuts.eq_append hdigits,
    takeFraction_cuts.eq_append hfraction, takeExponent_cuts.eq_append hexponent]
  simp

/-- A numeral starts as a word does. -/
theorem wordAhead_of_takeNumeral? {numeral : List Char}
    (h : takeNumeral? cs = some (numeral, rest)) :
    wordAhead cs = true ∧ rest.length < cs.length := by
  obtain ⟨minus, digits, fraction, exponent, cs₁, cs₂, cs₃, hminus, hdigits, hne, hfraction,
    hexponent, -⟩ := exists_parts_of_takeNumeral? h
  have hcs : cs = minus ++ (digits ++ (fraction ++ (exponent ++ rest))) := by
    rw [← takeExponent_cuts.eq_append hexponent, ← takeFraction_cuts.eq_append hfraction,
      ← takeDigits_cuts.eq_append hdigits, ← takeMinus_cuts.eq_append hminus]
  obtain ⟨d, digits, rfl⟩ := List.exists_cons_of_ne_nil hne
  have hd : d.isDigit = true := isDigit_of_takeDigits hdigits d List.mem_cons_self
  refine ⟨?_, by simp only [hcs, List.length_append, List.length_cons]; omega⟩
  unfold takeMinus at hminus
  split at hminus
  · rfl
  · obtain ⟨rfl, -⟩ := Prod.mk.inj hminus
    rw [hcs]
    exact isWordChar_of_isDigit hd

theorem length_lt_of_takeString? {mark : Char} {content : List Char}
    (h : takeString? mark cs = some (content, rest)) : rest.length < cs.length := by
  fun_induction takeString? mark cs generalizing content with
  | case1 => cases h
  | case2 c cs ih =>
    obtain ⟨⟨content', rest'⟩, htake, heq⟩ := Option.map_eq_some_iff.mp h
    obtain ⟨-, rfl⟩ := Prod.mk.inj heq
    exact Nat.lt_of_lt_of_le (ih htake) (Nat.le_add_right cs.length 2)
  | case3 cs =>
    obtain ⟨-, rfl⟩ := Prod.mk.inj (Option.some.inj h)
    exact Nat.lt_succ_self _
  | case4 => cases h
  | case5 c cs _ _ _ ih =>
    obtain ⟨⟨content', rest'⟩, htake, heq⟩ := Option.map_eq_some_iff.mp h
    obtain ⟨-, rfl⟩ := Prod.mk.inj heq
    exact Nat.lt_succ_of_lt (ih htake)

/-- A string ends at its closing quote, whatever follows. -/
theorem takeString?_append {mark : Char} {content others : List Char} (hmark : mark ≠ '\\')
    (h : takeString? mark cs = some (content, others)) (rest : List Char) :
    takeString? mark (cs ++ rest) = some (content, others ++ rest) := by
  fun_induction takeString? mark cs generalizing content with
  | case1 => cases h
  | case2 c cs ih =>
    obtain ⟨⟨content', others'⟩, htake, heq⟩ := Option.map_eq_some_iff.mp h
    obtain ⟨rfl, rfl⟩ := Prod.mk.inj heq
    simp only [List.cons_append, takeString?, ih htake, Option.map_some]
  | case3 cs =>
    obtain ⟨rfl, rfl⟩ := Prod.mk.inj (Option.some.inj h)
    rw [List.cons_append, takeString?.eq_3 _ _ _ fun _ _ heq => absurd heq hmark, if_pos rfl]
  | case4 => cases h
  | case5 c cs _ hc hslash ih =>
    obtain ⟨⟨content', others'⟩, htake, heq⟩ := Option.map_eq_some_iff.mp h
    obtain ⟨rfl, rfl⟩ := Prod.mk.inj heq
    rw [List.cons_append, takeString?.eq_3 _ _ _ fun _ _ heq => absurd heq hslash, if_neg hc,
      if_neg hslash, ih htake, Option.map_some]

/-- A word starts with a character of words, and takes it. -/
theorem wordAhead_of_takeWord? {token : Token} (h : takeWord? cs = some (token, rest)) :
    wordAhead cs = true ∧ rest.length < cs.length := by
  revert h
  fun_cases takeWord? cs with
  | case1 others hkeyword | case2 _ others hkeyword | case3 _ _ others hkeyword =>
    intro h
    obtain ⟨-, rfl⟩ := Prod.mk.inj (Option.some.inj h)
    exact wordAhead_of_takeKeyword? (by decide) hkeyword
  | case4 _ _ _ numeral others hnumeral =>
    intro h
    obtain ⟨-, rfl⟩ := Prod.mk.inj (Option.some.inj h)
    exact wordAhead_of_takeNumeral? hnumeral
  | case5 _ _ _ _ hword name others hname =>
    intro h
    obtain ⟨-, rfl⟩ := Prod.mk.inj (Option.some.inj h)
    refine ⟨hword, ?_⟩
    cases cs with
    | nil => cases hword
    | cons c cs =>
      have hc : isWordChar c = true := hword
      have hcs := congrArg List.length (takePath_cuts.lossless cs)
      simp only [takePath, hc, Bool.true_or, if_true, Prod.mk.injEq] at hname
      rw [← hname.2]
      simp only [List.length_append, List.length_cons] at hcs ⊢
      omega
  | case6 => nofun

theorem takeWord?_append (hrest : Delimited rest) :
    takeWord? (cs ++ rest) =
      (takeWord? cs).map fun (token, others) => (token, others ++ rest) := by
  unfold takeWord?
  rw [takeKeyword?_append (by decide) hrest, takeKeyword?_append (by decide) hrest,
    takeKeyword?_append (by decide) hrest, takeNumeral?_append hrest, hrest.wordAhead_append,
    takePath_cuts.append _ hrest]
  cases takeKeyword? "true" cs with
  | some others => rfl
  | none =>
  cases takeKeyword? "false" cs with
  | some others => rfl
  | none =>
  cases takeKeyword? "null" cs with
  | some others => rfl
  | none =>
  cases takeNumeral? cs with
  | some read => rfl
  | none => cases wordAhead cs <;> rfl

/-! ## Tokens -/

theorem next?_of_wordAhead (h : wordAhead cs = true) : next? cs = takeWord? cs := by
  apply next?.eq_16 <;> (rintro tail rfl; revert h; rw [wordAhead]; decide)

/-- No token starts with a blank. -/
theorem next?_of_isBlank (h : isBlank c = true) : next? (c :: cs) = none := by
  have hword : takeWord? (c :: cs) = none := by
    cases hword : takeWord? (c :: cs) with
    | none => rfl
    | some read =>
      have hc : isWordChar c = true := (wordAhead_of_takeWord? hword).1
      rw [isWordChar_of_isDelimiter (isDelimiter_of_isBlank h)] at hc
      cases hc
  rw [next?.eq_16, hword] <;>
    (intro tail heq; obtain rfl := (List.cons.inj heq).1; revert h; decide)

/-- A token takes a character at least. -/
theorem length_lt_of_next? {token : Token} (h : next? cs = some (token, rest)) :
    rest.length < cs.length := by
  revert h
  fun_cases next? cs with
  | case14 cs | case15 cs =>
    intro h
    obtain ⟨⟨content, others⟩, htake, heq⟩ := Option.map_eq_some_iff.mp h
    obtain ⟨-, rfl⟩ := Prod.mk.inj heq
    exact Nat.lt_succ_of_lt (length_lt_of_takeString? htake)
  | case16 => exact fun h => (wordAhead_of_takeWord? h).2
  | _ =>
    intro h
    obtain ⟨-, rfl⟩ := Prod.mk.inj (Option.some.inj h)
    simp only [List.length_cons]
    omega

/-- Before a delimiter, the next token is the one that stands there if nothing follows. -/
theorem next?_append {token : Token} {others : List Char}
    (h : next? cs = some (token, others)) (hrest : Delimited rest) :
    next? (cs ++ rest) = some (token, others ++ rest) := by
  revert h
  fun_cases next? cs with
  -- Operators that another `=` would make longer: no delimiter is one.
  | case6 cs hequal | case8 cs hequal | case11 cs hequal | case13 cs hequal =>
    intro h
    obtain ⟨rfl, rfl⟩ := Prod.mk.inj (Option.some.inj h)
    have hequal := hrest.append_ne (by decide) hequal
    simp only [List.cons_append]
    rw [next?]
    exact hequal
  | case9 cs _ hequal =>
    intro h
    obtain ⟨rfl, rfl⟩ := Prod.mk.inj (Option.some.inj h)
    have hequal := hrest.append_ne (by decide) hequal
    rw [List.cons_append, next?.eq_9 _ (fun tail => hequal ('=' :: tail)) hequal]
  | case14 cs | case15 cs =>
    intro h
    obtain ⟨⟨content, others⟩, htake, heq⟩ := Option.map_eq_some_iff.mp h
    obtain ⟨rfl, rfl⟩ := Prod.mk.inj heq
    simp only [List.cons_append, next?, takeString?_append (by decide) htake, Option.map_some]
  | case16 =>
    -- A word: what is no operator and no string can only be read as one.
    intro h
    have hword : wordAhead (cs ++ rest) = true := by
      rw [hrest.wordAhead_append, (wordAhead_of_takeWord? h).1]
    rw [next?_of_wordAhead hword, takeWord?_append hrest, h, Option.map_some]
  | _ =>
    intro h
    obtain ⟨rfl, rfl⟩ := Prod.mk.inj (Option.some.inj h)
    rfl

/-- The tokens of a text: blanks are passed over, and what is left starts with a token. -/
inductive Lexes : List Char → List Token → Prop where
  | done : Lexes [] []
  | blank {c cs tokens} : isBlank c = true → Lexes cs tokens → Lexes (c :: cs) tokens
  | token {cs token rest tokens} :
      next? cs = some (token, rest) → Lexes rest tokens → Lexes cs (token :: tokens)

namespace Lexes

variable {tokens more : List Token} {token : Token}

theorem of_dropWhile (h : Lexes (cs.dropWhile isBlank) tokens) : Lexes cs tokens := by
  induction cs with
  | nil => exact h
  | cons c cs ih =>
    by_cases hc : isBlank c = true
    · rw [List.dropWhile_cons_of_pos hc] at h
      exact .blank hc (ih h)
    · rwa [List.dropWhile_cons_of_neg hc] at h

theorem of_tokensWithin {fuel : Nat} (h : tokensWithin fuel cs = some tokens) :
    Lexes cs tokens := by
  induction fuel generalizing cs tokens with
  | zero =>
    refine of_dropWhile ?_
    rw [tokensWithin] at h
    split at h
    · rename_i hempty
      obtain rfl := Option.some.inj h
      rw [List.isEmpty_iff.mp hempty]
      exact .done
    · cases h
  | succ fuel ih =>
    refine of_dropWhile ?_
    rw [tokensWithin] at h
    split at h
    · rename_i hempty
      obtain rfl := Option.some.inj h
      rw [hempty]
      exact .done
    · split at h
      · cases h
      · rename_i token rest hnext
        obtain ⟨others, hothers, rfl⟩ := Option.map_eq_some_iff.mp h
        exact .token hnext (ih hothers)

theorem tokensWithin_eq (h : Lexes cs tokens) {fuel : Nat} (hfuel : cs.length ≤ fuel) :
    tokensWithin fuel cs = some tokens := by
  induction h generalizing fuel with
  | done => cases fuel <;> rfl
  | @blank c cs tokens hc _ ih =>
    cases fuel with
    | zero => cases hfuel
    | succ fuel =>
      rw [← ih (Nat.le_of_succ_le hfuel), tokensWithin, tokensWithin,
        List.dropWhile_cons_of_pos hc]
  | @token cs token rest tokens hnext _ ih =>
    have hrest := length_lt_of_next? hnext
    have hdrop : cs.dropWhile isBlank = cs := by
      cases cs with
      | nil => rfl
      | cons c cs =>
        refine List.dropWhile_cons_of_neg fun hc => ?_
        rw [next?_of_isBlank hc] at hnext
        cases hnext
    cases fuel with
    | zero => omega
    | succ fuel =>
      have hothers : tokensWithin fuel rest = some tokens := ih (by omega)
      rw [tokensWithin, hdrop]
      cases cs with
      | nil => cases hrest
      | cons c cs => simp only [hnext, hothers, Option.map_some]

/-- Texts one behind the other have the tokens of both, where a delimiter stands between them. -/
theorem append (h : Lexes cs tokens) (hrest : Lexes rest more) (hdelimited : Delimited rest) :
    Lexes (cs ++ rest) (tokens ++ more) := by
  induction h with
  | done => exact hrest
  | blank hc _ ih => exact .blank hc ih
  | token hnext _ ih => exact .token (next?_append hnext hdelimited) ih

theorem blanks {gap : List Char} (hgap : ∀ c ∈ gap, isBlank c = true) (h : Lexes cs tokens) :
    Lexes (gap ++ cs) tokens := by
  induction gap with
  | nil => exact h
  | cons c gap ih =>
    obtain ⟨hc, hgap⟩ := List.forall_mem_cons.mp hgap
    exact .blank hc (ih hgap)

/-- A text that is one token. -/
theorem single (h : next? cs = some (token, [])) : Lexes cs [token] := .token h .done

end Lexes

/-- The reader of tokens reads what `Lexes` says. -/
theorem tokens?_eq_some_iff {tokens : List Token} : tokens? cs = some tokens ↔ Lexes cs tokens :=
  ⟨Lexes.of_tokensWithin, fun h => h.tokensWithin_eq (Nat.le_refl _)⟩

end TriageFlow.Rule
