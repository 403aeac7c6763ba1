import Mathlib.Tactic.MkIffOfInductiveProp
import TriageFlow.Proofs.Lexing
import TriageFlow.Proofs.PathText

/-!
The texts that are one token of a rule: numerals (`takeNumeral?_of_isNumeral`), strings in double
quotes with a backslash before quotes and backslashes (`next?_quoted`), and the paths that no
keyword and no numeral stands in front of (`next?_plain`).
-/

namespace TriageFlow.Rule

variable {cs rest tail : List Char} {c : Char}

/-! ## Numerals -/

/-- Digits, one at least. -/
def IsDigits (cs : List Char) : Prop := cs ≠ [] ∧ ∀ c ∈ cs, c.isDigit = true

/-- A point and digits, or nothing. -/
def IsFraction (cs : List Char) : Prop := cs = [] ∨ ∃ digits, IsDigits digits ∧ cs = '.' :: digits

/-- A sign, or nothing. -/
def IsSign (cs : List Char) : Prop := cs = [] ∨ cs = ['+'] ∨ cs = ['-']

/-- An `e`, perhaps a sign, and digits, or nothing. -/
def IsExponent (cs : List Char) : Prop :=
  cs = [] ∨ ∃ mark sign digits, (mark = 'e' ∨ mark = 'E') ∧ IsSign sign ∧ IsDigits digits ∧
    cs = mark :: (sign ++ digits)

/-- The numerals of rule texts: perhaps a minus, then digits, a fraction and an exponent. -/
def IsNumeral (cs : List Char) : Prop :=
  ∃ minus digits fraction exponent, (minus = [] ∨ minus = ['-']) ∧ IsDigits digits ∧
    IsFraction fraction ∧ IsExponent exponent ∧ cs = minus ++ (digits ++ (fraction ++ exponent))

theorem IsDigits.ne_cons (h : IsDigits cs) (hc : c.isDigit = false) :
    ∀ tail, cs ++ rest = c :: tail → False := by
  intro tail heq
  obtain ⟨hne, hdigits⟩ := h
  cases cs with
  | nil => exact hne rfl
  | cons d cs =>
    obtain rfl := (List.cons.inj heq).1
    rw [hdigits d List.mem_cons_self] at hc
    cases hc

theorem takeDigits_digits (h : IsDigits cs) (hrest : NoDigitAhead rest) :
    takeDigits (cs ++ rest) = (cs, rest) := by
  obtain ⟨hnone, hall⟩ := Prod.mk.inj (takeDigits_of_noDigitAhead hrest)
  rw [takeDigits, List.takeWhile_append_of_pos h.2, List.dropWhile_append_of_pos h.2, hnone, hall,
    List.append_nil]

theorem takeMinus_minus (hcs : cs = [] ∨ cs = ['-']) (h : IsDigits tail) :
    takeMinus (cs ++ (tail ++ rest)) = (cs, tail ++ rest) := by
  rcases hcs with rfl | rfl
  · exact takeMinus.eq_2 _ (h.ne_cons (by decide))
  · rfl

theorem takeSign_sign (hcs : IsSign cs) (h : IsDigits rest) :
    takeSign (cs ++ rest) = (cs, rest) := by
  rcases hcs with rfl | rfl | rfl
  · rw [List.nil_append, ← List.append_nil rest]
    exact takeSign.eq_3 _ (h.ne_cons (by decide)) (h.ne_cons (by decide))
  · rfl
  · rfl

theorem noDigitAhead_nil : NoDigitAhead [] := nofun

theorem noDigitAhead_cons (hc : c.isDigit = false) : NoDigitAhead (c :: cs) := by
  rintro d ⟨⟩
  exact hc

theorem IsExponent.noDigitAhead (h : IsExponent cs) : NoDigitAhead cs := by
  rcases h with rfl | ⟨mark, sign, digits, rfl | rfl, -, -, rfl⟩
  · exact noDigitAhead_nil
  · exact noDigitAhead_cons (by decide)
  · exact noDigitAhead_cons (by decide)

theorem IsFraction.noDigitAhead (h : IsFraction cs) (hrest : IsExponent rest) :
    NoDigitAhead (cs ++ rest) := by
  rcases h with rfl | ⟨digits, -, rfl⟩
  · exact hrest.noDigitAhead
  · exact noDigitAhead_cons (by decide)

theorem takeExponent_exponent (h : IsExponent cs) : takeExponent cs = (cs, []) := by
  rcases h with rfl | ⟨mark, sign, digits, hmark, hsign, hdigits, rfl⟩
  · rfl
  · have htake : takeDigits digits = (digits, []) := by
      rw [← List.append_nil digits, takeDigits_digits hdigits noDigitAhead_nil,
        List.append_nil]
    obtain ⟨d, ds, rfl⟩ := List.exists_cons_of_ne_nil hdigits.1
    simp only [takeExponent, if_pos hmark, takeSign_sign hsign hdigits, htake]

theorem takeFraction_fraction (h : IsFraction cs) (hrest : IsExponent rest) :
    takeFraction (cs ++ rest) = (cs, rest) := by
  rcases h with rfl | ⟨digits, hdigits, rfl⟩
  · refine takeFraction.eq_2 _ ?_
    rintro tail rfl
    rcases hrest with h | ⟨mark, _, _, rfl | rfl, -, -, h⟩ <;> cases h
  · have htake := takeDigits_digits hdigits hrest.noDigitAhead
    obtain ⟨d, ds, rfl⟩ := List.exists_cons_of_ne_nil hdigits.1
    rw [List.cons_append, takeFraction, htake]

theorem IsNumeral.ne_cons (h : IsNumeral cs) (hc : c.isDigit = false) (hminus : c ≠ '-') :
    ∀ tail, cs = c :: tail → False := by
  rintro tail rfl
  obtain ⟨minus, digits, fraction, exponent, rfl | rfl, hdigits, -, -, hcs⟩ := h
  · exact hdigits.ne_cons hc tail hcs.symm
  · exact hminus (List.cons.inj hcs).1

/-- A numeral is read to its end. -/
theorem takeNumeral?_of_isNumeral (h : IsNumeral cs) : takeNumeral? cs = some (cs, []) := by
  obtain ⟨minus, digits, fraction, exponent, hminus, hdigits, hfraction, hexponent, rfl⟩ := h
  have htake := takeDigits_digits hdigits (hfraction.noDigitAhead hexponent)
  simp only [takeNumeral?, takeMinus_minus hminus hdigits, htake]
  obtain ⟨d, ds, rfl⟩ := List.exists_cons_of_ne_nil hdigits.1
  simp only [takeFraction_fraction hfraction hexponent, takeExponent_exponent hexponent,
    List.append_assoc]
  rfl

theorem isDigits_of_takeDigits {digits : List Char} (h : takeDigits cs = (digits, rest))
    (hne : digits ≠ []) : IsDigits digits :=
  ⟨hne, isDigit_of_takeDigits h⟩

theorem isMinus_of_takeMinus {minus : List Char} (h : takeMinus cs = (minus, rest)) :
    minus = [] ∨ minus = ['-'] := by
  revert h
  fun_cases takeMinus cs with
  | case1 => rintro ⟨⟩; exact .inr rfl
  | case2 => rintro ⟨⟩; exact .inl rfl

theorem isSign_of_takeSign {sign : List Char} (h : takeSign cs = (sign, rest)) : IsSign sign := by
  revert h
  fun_cases takeSign cs with
  | case1 => rintro ⟨⟩; exact .inr (.inl rfl)
  | case2 => rintro ⟨⟩; exact .inr (.inr rfl)
  | case3 => rintro ⟨⟩; exact .inl rfl

theorem isFraction_of_takeFraction {fraction : List Char}
    (h : takeFraction cs = (fraction, rest)) : IsFraction fraction := by
  revert h
  fun_cases takeFraction cs with
  | case1 | case3 => rintro ⟨⟩; exact .inl rfl
  | case2 cs digits rest hne hdigits =>
    rintro ⟨⟩
    exact .inr ⟨digits, isDigits_of_takeDigits hdigits hne, rfl⟩

theorem isExponent_of_takeExponent {exponent : List Char}
    (h : takeExponent cs = (exponent, rest)) : IsExponent exponent := by
  revert h
  fun_cases takeExponent cs with
  | case1 | case2 | case4 => rintro ⟨⟩; exact .inl rfl
  | case3 c cs hc sign others hsign digits rest hne hdigits =>
    rintro ⟨⟩
    exact .inr ⟨c, sign, digits, hc, isSign_of_takeSign hsign,
      isDigits_of_takeDigits hdigits hne, rfl⟩

theorem isNumeral_of_takeNumeral? {numeral : List Char}
    (h : takeNumeral? cs = some (numeral, rest)) : IsNumeral numeral := by
  obtain ⟨minus, digits, fraction, exponent, cs₁, cs₂, cs₃, hminus, hdigits, hne, hfraction,
    hexponent, rfl⟩ := exists_parts_of_takeNumeral? h
  exact ⟨minus, digits, fraction, exponent, isMinus_of_takeMinus hminus,
    isDigits_of_takeDigits hdigits hne, isFraction_of_takeFraction hfraction,
    isExponent_of_takeExponent hexponent, by simp only [List.append_assoc]⟩

theorem takeNumeral?_eq_self_iff : takeNumeral? cs = some (cs, []) ↔ IsNumeral cs :=
  ⟨isNumeral_of_takeNumeral?, takeNumeral?_of_isNumeral⟩

instance : DecidablePred IsNumeral := fun _ => decidable_of_iff _ takeNumeral?_eq_self_iff

/-! ## Strings -/

/-- A character in a string. -/
def escape (c : Char) : List Char := if c = '"' ∨ c = '\\' then ['\\', c] else [c]

/-- A string in double quotes. -/
def quoted (content : List Char) : List Char := '"' :: (content.flatMap escape ++ ['"'])

theorem takeString?_escape :
    takeString? '"' (escape c ++ rest) =
      (takeString? '"' rest).map fun (content, rest) => (c :: content, rest) := by
  unfold escape
  split
  · rename_i hc
    rcases hc with rfl | rfl <;> rfl
  · rename_i hc
    obtain ⟨hquote, hslash⟩ := not_or.mp hc
    rw [List.singleton_append, takeString?.eq_3 _ _ _ fun _ _ heq => absurd heq hslash,
      if_neg hquote, if_neg hslash]

/-- A string is one token, and its content is read back. -/
theorem next?_quoted (content : List Char) :
    next? (quoted content) = some (.string content, []) := by
  have htake : takeString? '"' (content.flatMap escape ++ ['"']) = some (content, []) := by
    induction content with
    | nil => rfl
    | cons c content ih =>
      rw [List.flatMap_cons, List.append_assoc, takeString?_escape, ih, Option.map_some]
  rw [quoted, next?, htake, Option.map_some]

/-! ## Words -/

theorem keyword_starts : ∀ keyword ∈ keywords,
    ∃ c letters, keyword.toList = c :: letters ∧ c.isDigit = false ∧ c ≠ '-' := by
  rintro keyword (_ | ⟨_, _ | ⟨_, _ | ⟨_, ⟨⟩⟩⟩⟩)
  · exact ⟨'t', ['r', 'u', 'e'], rfl, by decide, by decide⟩
  · exact ⟨'f', ['a', 'l', 's', 'e'], rfl, by decide, by decide⟩
  · exact ⟨'n', ['u', 'l', 'l'], rfl, by decide, by decide⟩

/-- The word at the head of a text ends where its characters do. -/
theorem takeWhile_word {word : List Char} (hword : ∀ c ∈ word, isWordChar c = true)
    (hrest : wordAhead rest = false) : (word ++ rest).takeWhile isWordChar = word := by
  rw [List.takeWhile_append_of_pos hword]
  cases rest with
  | nil => simp
  | cons c rest =>
    have hc : isWordChar c = false := hrest
    simp [hc]

/-- A word is a keyword only if it is the whole keyword. -/
theorem takeKeyword?_of_ne {keyword : String} (hkeyword : keyword ∈ keywords) {word : List Char}
    (hword : ∀ c ∈ word, isWordChar c = true) (hrest : wordAhead rest = false)
    (hne : word ≠ keyword.toList) : takeKeyword? keyword (word ++ rest) = none := by
  cases htake : takeKeyword? keyword (word ++ rest) with
  | none => rfl
  | some others =>
    obtain ⟨heq, hothers⟩ := takeKeyword?_eq_some_iff.mp htake
    -- Both are the longest run of word characters at the head of the text.
    refine absurd ?_ hne
    rw [← takeWhile_word hword hrest, heq,
      takeWhile_word (isWordChar_of_mem_keyword hkeyword) hothers]

theorem takeWord?_of_numeral (h : ∀ keyword ∈ keywords, takeKeyword? keyword cs = none)
    {numeral : List Char} (hnumeral : takeNumeral? cs = some (numeral, rest)) :
    takeWord? cs = some (.number numeral, rest) := by
  simp only [takeWord?, h "true" (by decide), h "false" (by decide), h "null" (by decide),
    hnumeral]

theorem takeWord?_of_path (h : ∀ keyword ∈ keywords, takeKeyword? keyword cs = none)
    (hnumeral : takeNumeral? cs = none) (hword : wordAhead cs = true) :
    takeWord? cs = some (.path (takePath cs).1, (takePath cs).2) := by
  simp only [takeWord?, h "true" (by decide), h "false" (by decide), h "null" (by decide),
    hnumeral, if_pos hword]

/-- A numeral is one token. -/
theorem next?_of_isNumeral (h : IsNumeral cs) : next? cs = some (.number cs, []) := by
  have htake := takeNumeral?_of_isNumeral h
  have hword := (wordAhead_of_takeNumeral? htake).1
  have hkeyword : ∀ keyword ∈ keywords, takeKeyword? keyword cs = none := by
    intro keyword hkeyword
    obtain ⟨c, letters, hletters, hc, hminus⟩ := keyword_starts keyword hkeyword
    refine Option.eq_none_iff_forall_ne_some.mpr fun rest hrest => ?_
    rw [takeKeyword?_eq_some_iff, hletters] at hrest
    exact h.ne_cons hc hminus _ hrest.1
  rw [next?_of_wordAhead hword, takeWord?_of_numeral hkeyword htake]

/-! ## Paths -/

/-- Whether a text starts as numerals do. -/
def numeralAhead : List Char → Bool
  | c :: _ => c.isDigit || c == '-'
  | [] => false

/-- The paths that a rule text can name: their segments are words, and the first one is no keyword
and starts as no numeral does. -/
@[mk_iff]
structure Nameable (p : Path) : Prop where
  nonempty : ∀ s ∈ p.segments, s.toList ≠ []
  word : ∀ s ∈ p.segments, s.toList.all isWordChar = true
  keyword : p.root ∉ keywords
  start : numeralAhead p.root.toList = false

instance : DecidablePred Nameable := fun p => decidable_of_iff' _ (nameable_iff p)

theorem takePath_word {word : List Char} (hword : ∀ c ∈ word, isWordChar c = true) :
    takePath (word ++ rest) = (word ++ (takePath rest).1, (takePath rest).2) := by
  induction word with
  | nil => rfl
  | cons c word ih =>
    obtain ⟨hc, hword⟩ := List.forall_mem_cons.mp hword
    simp only [List.cons_append, takePath, hc, Bool.true_or, if_true, ih hword]

theorem takePath_segments {segments : List String} (hne : ∀ s ∈ segments, s.toList ≠ [])
    (hword : ∀ s ∈ segments, s.toList.all isWordChar = true) :
    takePath (segments.flatMap ('.' :: ·.toList)) =
      (segments.flatMap ('.' :: ·.toList), []) := by
  induction segments with
  | nil => rfl
  | cons s segments ih =>
    obtain ⟨hs, hne⟩ := List.forall_mem_cons.mp hne
    obtain ⟨hsword, hword⟩ := List.forall_mem_cons.mp hword
    have hsword := List.all_eq_true.mp hsword
    have hahead (rest : List Char) : wordAhead (s.toList ++ rest) = true := by
      obtain ⟨c, cs, hcs⟩ := List.exists_cons_of_ne_nil hs
      rw [hcs]
      exact hsword c (by simp [hcs])
    simp only [List.flatMap_cons, List.cons_append, takePath, hahead, beq_self_eq_true,
      Bool.and_self, Bool.or_true, if_true, takePath_word hsword, ih hne hword]

theorem takeNumeral?_cons (hc : numeralAhead (c :: cs) = false) (rest : List Char) :
    takeNumeral? (c :: (cs ++ rest)) = none := by
  obtain ⟨hc, hminus⟩ : c.isDigit = false ∧ c ≠ '-' := by simpa [numeralAhead] using hc
  have htake : takeMinus (c :: (cs ++ rest)) = ([], c :: (cs ++ rest)) :=
    takeMinus.eq_2 _ fun _ heq => hminus (List.cons.inj heq).1
  simp [takeNumeral?, htake, takeDigits, hc]

/-- The text of a path is one token. -/
theorem Nameable.next? {p : Path} (h : Nameable p) :
    next? p.toText.toList = some (.path p.toText.toList, []) := by
  obtain ⟨root, rest⟩ := p
  obtain ⟨hroot, hrest⟩ := List.forall_mem_cons.mp h.nonempty
  obtain ⟨hrootWord, hrestWord⟩ := List.forall_mem_cons.mp h.word
  obtain ⟨c, letters, hletters⟩ := List.exists_cons_of_ne_nil hroot
  have hrootWord := List.all_eq_true.mp hrootWord
  have hc : isWordChar c = true := hrootWord c (by simp [hletters])
  have hstart : numeralAhead root.toList = false := h.start
  have hpath : takePath (root.toList ++ rest.flatMap ('.' :: ·.toList)) =
      (root.toList ++ rest.flatMap ('.' :: ·.toList), []) := by
    rw [takePath_word hrootWord, takePath_segments hrest hrestWord]
  have hkeyword : ∀ keyword ∈ keywords,
      takeKeyword? keyword (root.toList ++ rest.flatMap ('.' :: ·.toList)) = none := by
    intro keyword hkeyword
    refine takeKeyword?_of_ne hkeyword hrootWord ?_ fun heq => ?_
    · cases rest with
      | nil => rfl
      | cons s rest => rfl
    · exact h.keyword (String.toList_inj.mp heq ▸ hkeyword)
  rw [Path.toList_toText]
  rw [hletters] at hstart
  rw [hletters, List.cons_append] at hpath hkeyword ⊢
  have hahead : wordAhead (c :: (letters ++ rest.flatMap ('.' :: ·.toList))) = true := hc
  rw [next?_of_wordAhead hahead, takeWord?_of_path hkeyword (takeNumeral?_cons hstart _) hahead,
    hpath]

/-- The code points of the blanks. -/
def blankPoints : List Nat :=
  [9, 10, 11, 12, 13, 0x20, 0x85, 0xA0, 0x1680, 0x2000, 0x2001, 0x2002, 0x2003, 0x2004, 0x2005,
    0x2006, 0x2007, 0x2008, 0x2009, 0x200A, 0x2028, 0x2029, 0x202F, 0x205F, 0x3000]

/-- No blank is a character of words. -/
theorem isWordChar_of_isBlank (h : Text.isBlank c = true) : isWordChar c = false := by
  have hpoint : c.toNat ∈ blankPoints := by
    simp only [Text.isBlank, Bool.or_eq_true, Bool.and_eq_true, decide_eq_true_eq,
      beq_iff_eq] at h
    simp only [blankPoints, List.mem_cons, List.not_mem_nil, or_false]
    omega
  have hall : ∀ n ∈ blankPoints, isWordChar (Char.ofNat n) = false := by decide +kernel
  rw [← Char.ofNat_toNat c]
  exact hall c.toNat hpoint

/-- The text of a path names the path. -/
theorem Nameable.ofText_toText {p : Path} (h : Nameable p) : Path.ofText p.toText = p := by
  refine Path.ofText_toText (fun s hs hdot => ?_) fun s hs => Text.trim_of_forall fun c hc => ?_
  · exact absurd (List.all_eq_true.mp (h.word s hs) '.' hdot) (by decide)
  · cases hblank : Text.isBlank c with
    | false => rfl
    | true =>
      have hword := List.all_eq_true.mp (h.word s hs) c hc
      rw [isWordChar_of_isBlank hblank] at hword
      cases hword

end TriageFlow.Rule
