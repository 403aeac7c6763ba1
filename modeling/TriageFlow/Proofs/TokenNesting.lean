import TriageFlow.Proofs.Words
import TriageFlow.Rule.Nesting

/-!
The nesting of a rule text, told by its tokens. The count runs over characters and knows of no
tokens, but what it makes of the characters of one token is an operation of that token alone
(`NestingCount.read`, `countOutside_of_next?`): strings are passed over as one, blanks and operators
change nothing, and a word ends an operand if it has a letter or a numeral in it. So the count over
a text is the count over its tokens (`Lexes.nestingOf_eq`).
-/

namespace TriageFlow.Rule

variable {cs rest word : List Char} {c : Char} {token : Token} {tokens : List Token}
  {s : NestingCount}

namespace NestingCount

/-- The state after a word. -/
def pass (s : NestingCount) (word : List Char) : NestingCount :=
  if word.any Text.isAlphanumeric then s.leave else s

/-- The state after a token. -/
def read (s : NestingCount) : Token → NestingCount
  | .opening => s.openGroup
  | .closing => s.closeGroup
  | .not => s.enter (s.level + 1)
  | .or | .and | .compare _ => s
  | .null | .truth _ | .number _ => s.leave
  | .string _ => { s with level := s.base }
  | .path name => s.pass name

theorem leave_leave (s : NestingCount) : s.leave.leave = s.leave := by
  simp [leave, enter, base]

theorem pass_cons (s : NestingCount) (c : Char) (word : List Char) :
    s.pass (c :: word) = (s.pass [c]).pass word := by
  unfold pass
  cases hc : Text.isAlphanumeric c <;> cases hword : word.any Text.isAlphanumeric <;>
    simp [hc, hword, leave_leave]

end NestingCount

/-! ## Words -/

/-- The characters that quote or nest. -/
def marks : List Char := ['"', '\'', '!', '(', ')']

theorem not_mem_marks_of_isWordChar (h : isWordChar c = true) : c ∉ marks := by
  have hnone : marks.all (fun d => !isWordChar d) = true := by decide
  intro hc
  have hword := List.all_eq_true.mp hnone c hc
  rw [h] at hword
  cases hword

theorem countOutside_cons (h : c ∉ marks) :
    countOutside s (c :: cs) = countOutside (s.pass [c]) cs := by
  simp only [marks, List.mem_cons, List.not_mem_nil, or_false, not_or] at h
  obtain ⟨hdouble, hsingle, hnot, hopening, hclosing⟩ := h
  rw [countOutside.eq_8 s c cs hdouble hsingle (fun _ h => absurd h hnot) hnot hopening hclosing]
  simp [NestingCount.pass]

/-- A text without marks is passed as a word. -/
theorem countOutside_append (h : ∀ c ∈ word, c ∉ marks) (s : NestingCount) :
    countOutside s (word ++ rest) = countOutside (s.pass word) rest := by
  induction word generalizing s with
  | nil => rfl
  | cons c word ih =>
    obtain ⟨hc, hword⟩ := List.forall_mem_cons.mp h
    rw [List.cons_append, countOutside_cons hc, ih hword, ← s.pass_cons c word]

theorem isAlphanumeric_of_isDigit (h : c.isDigit = true) : Text.isAlphanumeric c = true := by
  have hle : c.val ≤ '9'.val := by
    simp only [Char.isDigit, Bool.and_eq_true, decide_eq_true_eq] at h
    exact h.2
  have hascii : c.toNat < 0x80 := Nat.lt_of_le_of_lt (UInt32.le_iff_toNat_le.mp hle) (by decide)
  simp [Text.isAlphanumeric, Text.isNumeric, hascii, h]

theorem NestingCount.pass_of_mem (hmem : c ∈ word) (hc : Text.isAlphanumeric c = true)
    (s : NestingCount) : s.pass word = s.leave :=
  if_pos (List.any_eq_true.mpr ⟨c, hmem, hc⟩)

theorem IsNumeral.not_mem_marks (h : IsNumeral word) : ∀ c ∈ word, c ∉ marks := by
  have unmarked {digits : List Char} (h : IsDigits digits) : ∀ c ∈ digits, c ∉ marks :=
    fun c hc => not_mem_marks_of_isWordChar (isWordChar_of_isDigit (h.2 c hc))
  obtain ⟨minus, digits, fraction, exponent, hminus, hdigits, hfraction, hexponent, rfl⟩ := h
  refine List.forall_mem_append.mpr ⟨?_, List.forall_mem_append.mpr
    ⟨unmarked hdigits, List.forall_mem_append.mpr ⟨?_, ?_⟩⟩⟩
  · rcases hminus with rfl | rfl <;> simp [marks]
  · rcases hfraction with rfl | ⟨digits, hdigits, rfl⟩
    · nofun
    · exact List.forall_mem_cons.mpr ⟨by decide, unmarked hdigits⟩
  · rcases hexponent with rfl | ⟨mark, sign, digits, hmark, hsign, hdigits, rfl⟩
    · nofun
    · refine List.forall_mem_cons.mpr ⟨?_, List.forall_mem_append.mpr ⟨?_, unmarked hdigits⟩⟩
      · rcases hmark with rfl | rfl <;> decide
      · rcases hsign with rfl | rfl | rfl <;> simp [marks]

/-- A numeral ends an operand: it has digits. -/
theorem IsNumeral.pass_eq (h : IsNumeral word) (s : NestingCount) : s.pass word = s.leave := by
  obtain ⟨minus, digits, fraction, exponent, -, ⟨hne, hdigits⟩, -, -, rfl⟩ := h
  obtain ⟨d, digits, rfl⟩ := List.exists_cons_of_ne_nil hne
  exact s.pass_of_mem (by simp) (isAlphanumeric_of_isDigit (hdigits d List.mem_cons_self))

theorem not_mem_marks_of_takePath {name : List Char} (h : takePath cs = (name, rest)) :
    ∀ c ∈ name, c ∉ marks := by
  obtain ⟨rfl, -⟩ := Prod.mk.inj h.symm
  clear h
  fun_induction takePath cs with
  | case1 | case3 => exact List.forall_mem_nil _
  | case2 c cs hc name others hname ih =>
    rw [hname] at ih
    refine List.forall_mem_cons.mpr ⟨?_, ih⟩
    simp only [Bool.or_eq_true, Bool.and_eq_true, beq_iff_eq] at hc
    rcases hc with hc | ⟨rfl, -⟩
    · exact not_mem_marks_of_isWordChar hc
    · decide

/-! ## Tokens -/

theorem countOutside_takeKeyword? {keyword : String} (hkeyword : keyword ∈ keywords)
    (h : takeKeyword? keyword cs = some rest) (s : NestingCount) :
    countOutside s cs = countOutside s.leave rest := by
  obtain ⟨rfl, -⟩ := takeKeyword?_eq_some_iff.mp h
  have hmarks : ∀ c ∈ keyword.toList, c ∉ marks :=
    fun c hc => not_mem_marks_of_isWordChar (isWordChar_of_mem_keyword hkeyword c hc)
  have halpha : ∀ keyword ∈ keywords, keyword.toList.any Text.isAlphanumeric = true := by decide
  rw [countOutside_append hmarks, NestingCount.pass,
    if_pos (halpha keyword hkeyword)]

theorem countOutside_takeWord? (h : takeWord? cs = some (token, rest)) (s : NestingCount) :
    countOutside s cs = countOutside (s.read token) rest := by
  revert h
  fun_cases takeWord? cs with
  | case1 others hkeyword | case2 _ others hkeyword | case3 _ _ others hkeyword =>
    rintro ⟨⟩
    exact countOutside_takeKeyword? (by decide) hkeyword s
  | case4 _ _ _ numeral others hnumeral =>
    rintro ⟨⟩
    have hword := isNumeral_of_takeNumeral? hnumeral
    rw [eq_append_of_takeNumeral? hnumeral, countOutside_append hword.not_mem_marks,
      hword.pass_eq]
    rfl
  | case5 _ _ _ _ hword name others hname =>
    rintro ⟨⟩
    rw [takePath_cuts.eq_append hname, countOutside_append (not_mem_marks_of_takePath hname)]
    rfl
  | case6 =>
    intro h
    cases h

/-- A string is passed over to its end, where an operand ends. -/
theorem countInside_takeString? {mark : Char} {content : List Char}
    (h : takeString? mark cs = some (content, rest)) (s : NestingCount) :
    countInside s mark cs = countOutside { s with level := s.base } rest := by
  fun_induction takeString? mark cs generalizing content with
  | case1 => cases h
  | case2 c cs ih =>
    obtain ⟨⟨content', rest'⟩, htake, heq⟩ := Option.map_eq_some_iff.mp h
    obtain ⟨-, rfl⟩ := Prod.mk.inj heq
    rw [countInside.eq_2, ih htake]
  | case3 cs hescape =>
    obtain ⟨-, rfl⟩ := Prod.mk.inj (Option.some.inj h)
    rw [countInside.eq_3 _ _ _ _ hescape, if_pos rfl]
  | case4 => cases h
  | case5 c cs hescape hc hslash ih =>
    obtain ⟨⟨content', rest'⟩, htake, heq⟩ := Option.map_eq_some_iff.mp h
    obtain ⟨-, rfl⟩ := Prod.mk.inj heq
    rw [countInside.eq_3 _ _ _ _ hescape, if_neg hc, ih htake]

/-- What the count makes of the characters of a token, the token alone tells. -/
theorem countOutside_of_next? (h : next? cs = some (token, rest)) (s : NestingCount) :
    countOutside s cs = countOutside (s.read token) rest := by
  revert h
  fun_cases next? cs with
  | case9 cs _ hequal =>
    rintro ⟨⟩
    exact countOutside.eq_5 s _ hequal
  | case14 cs | case15 cs =>
    intro h
    obtain ⟨⟨content, others⟩, htake, heq⟩ := Option.map_eq_some_iff.mp h
    obtain ⟨rfl, rfl⟩ := Prod.mk.inj heq
    exact countInside_takeString? htake s
  | case16 => exact fun h => countOutside_takeWord? h s
  | _ =>
    rintro ⟨⟩
    rfl

theorem countOutside_of_isBlank (h : isBlank c = true) (s : NestingCount) :
    countOutside s (c :: cs) = countOutside s cs := by
  have hc : ((c = ' ' ∨ c = '\t') ∨ c = '\r') ∨ c = '\n' := by simpa [isBlank] using h
  rcases hc with ((rfl | rfl) | rfl) | rfl <;> rfl

/-- The count over a text is the count over its tokens. -/
theorem Lexes.countOutside_eq (h : Lexes cs tokens) (s : NestingCount) :
    countOutside s cs = tokens.foldl NestingCount.read s := by
  induction h generalizing s with
  | done => rfl
  | blank hc _ ih => rw [countOutside_of_isBlank hc, ih]
  | token hnext _ ih => rw [countOutside_of_next? hnext, ih, List.foldl_cons]

/-- The nesting of a text is told by its tokens. -/
theorem Lexes.nestingOf_eq (h : Lexes cs tokens) :
    nestingOf cs = (tokens.foldl NestingCount.read ⟨[], 0, 0⟩).deepest := by
  rw [nestingOf, h.countOutside_eq]

end TriageFlow.Rule
