import TriageFlow.Proofs.Fencing

/-!
Answers in a code fence. Erasing a pattern acts on each side of a line break by itself
(`Text.erase_append_cons`), so a fence on lines of its own is taken out alone, whatever backticks the
text in it starts or ends with. It leaves two line breaks, and these are trimmed off before the
answer is read.
-/

namespace TriageFlow

namespace Text

variable {pattern cs : List Char} {c : Char}

/-- A pattern that starts before a separator ends before it. -/
theorem isPrefixOf_append_cons (hc : c ∉ pattern) (cs rest : List Char) :
    pattern.isPrefixOf (cs ++ c :: rest) = pattern.isPrefixOf cs := by
  induction pattern generalizing cs with
  | nil => simp only [List.isPrefixOf_nil_left]
  | cons f pattern ih =>
    obtain ⟨hf, hpattern⟩ := List.ne_and_not_mem_of_not_mem_cons hc
    cases cs with
    | nil =>
      rw [List.nil_append, List.isPrefixOf_cons_cons, beq_false_of_ne hf.symm, Bool.false_and]
      rfl
    | cons d cs =>
      rw [List.cons_append, List.isPrefixOf_cons_cons, List.isPrefixOf_cons_cons, ih hpattern]

/-- A pattern is erased on each side of a separator by itself. -/
theorem eraseFrom_append_cons (hpattern : pattern ≠ []) (hc : c ∉ pattern) {skip : Nat}
    (hskip : skip ≤ cs.length) (rest : List Char) :
    eraseFrom pattern skip (cs ++ c :: rest) =
      eraseFrom pattern skip cs ++ c :: erase pattern rest := by
  fun_induction eraseFrom pattern skip cs with
  | case1 skip =>
    obtain rfl : skip = 0 := Nat.le_zero.mp hskip
    have hstarts : pattern.isPrefixOf (c :: rest) = false := by
      rw [← List.nil_append (c :: rest), isPrefixOf_append_cons hc, ← Bool.not_eq_true,
        List.isPrefixOf_iff_prefix, List.prefix_nil]
      exact hpattern
    rw [List.nil_append, eraseFrom, hstarts, if_neg Bool.false_ne_true]
    rfl
  | case2 skip d cs ih => exact ih (Nat.le_of_succ_le_succ hskip)
  | case3 d cs hstarts ih =>
    have hlength := (List.isPrefixOf_iff_prefix.mp hstarts).length_le
    have hsame := isPrefixOf_append_cons hc (d :: cs) rest
    rw [List.length_cons] at hlength
    rw [hstarts, List.cons_append] at hsame
    rw [List.cons_append, eraseFrom, if_pos hsame]
    exact ih (by omega)
  | case4 d cs hstarts ih =>
    have hsame := isPrefixOf_append_cons hc (d :: cs) rest
    rw [List.cons_append] at hsame
    rw [List.cons_append, eraseFrom, hsame, if_neg hstarts, ih (Nat.zero_le _), List.cons_append]

theorem erase_append_cons (hpattern : pattern ≠ []) (hc : c ∉ pattern) (cs rest : List Char) :
    erase pattern (cs ++ c :: rest) = erase pattern cs ++ c :: erase pattern rest :=
  eraseFrom_append_cons hpattern hc (Nat.zero_le _) rest

theorem trimEnd_append_blank (hc : isBlank c = true) (cs : List Char) :
    trimEnd (cs ++ [c]) = trimEnd cs := by
  rw [trimEnd, List.reverse_append, List.reverse_singleton, List.singleton_append,
    List.dropWhile_cons_of_pos hc]
  rfl

/-- Blanks around a text are trimmed off with its own. -/
theorem trim_between_blanks (hc : isBlank c = true) (cs : List Char) :
    trim (c :: (cs ++ [c])) = trim cs := by
  unfold trim trimStart
  rw [List.dropWhile_cons_of_pos hc, List.dropWhile_append]
  by_cases hblank : (cs.dropWhile isBlank).isEmpty = true
  · rw [if_pos hblank, List.isEmpty_iff.mp hblank, List.dropWhile_cons_of_pos hc]
    rfl
  · rw [if_neg hblank]
    exact trimEnd_append_blank hc _

end Text

open Json (Value)

/-! ## Fences on lines of their own -/

/-- Fences are taken out line by line. -/
theorem withoutFences_append_newline (cs rest : List Char) :
    withoutFences (cs ++ '\n' :: rest) = withoutFences cs ++ '\n' :: withoutFences rest := by
  have hjson : jsonFence ≠ [] := List.cons_ne_nil _ _
  have hfence : fence ≠ [] := List.cons_ne_nil _ _
  unfold withoutFences
  rw [Text.erase_append_cons hjson (by decide), Text.erase_append_cons hfence (by decide)]

/-- On one line the fence for JSON may leave a plain one, which is then taken out as well. -/
example : withoutFences "`````json` [true]".toList = " [true]".toList := by decide

/-- A fence around a text leaves nothing of itself in what is read. -/
theorem trim_withoutFences_fenced {opening : String}
    (hopening : withoutFences opening.toList = []) (t : String) :
    Text.trim (withoutFences (opening ++ "\n" ++ t ++ "\n```").toList) =
      Text.trim (withoutFences t.toList) := by
  have htext : (opening ++ "\n" ++ t ++ "\n```").toList =
      opening.toList ++ '\n' :: (t.toList ++ '\n' :: fence) := by
    simp [fence]
  have hclosing : withoutFences fence = [] := rfl
  rw [htext, withoutFences_append_newline, withoutFences_append_newline, hopening, hclosing,
    List.nil_append]
  exact Text.trim_between_blanks rfl _

/-- What is read of a text does not change with a fence around it. -/
theorem trim_withoutFences_of_fenced {t s : String}
    (h : s ∈ [t, "```json\n" ++ t ++ "\n```", "```\n" ++ t ++ "\n```"]) :
    Text.trim (withoutFences s.toList) = Text.trim (withoutFences t.toList) := by
  have hjson : withoutFences "```json".toList = [] := rfl
  have hplain : withoutFences "```".toList = [] := rfl
  simp only [List.mem_cons, List.not_mem_nil, or_false] at h
  obtain h | h | h := h
  · rw [h]
  · rw [h]
    exact trim_withoutFences_fenced hjson t
  · rw [h]
    exact trim_withoutFences_fenced hplain t

/-- A text alone, the text in a fence for JSON and the text in a plain fence are read alike: either
all three as one value, or none, and then each failure quotes the start of its own text. -/
theorem fenced_texts_read_alike (t : String) :
    let texts := [t, "```json\n" ++ t ++ "\n```", "```\n" ++ t ++ "\n```"]
    (∃ v, texts.map readModelOutput = texts.map fun _ => .ok v) ∨
    texts.map readModelOutput = texts.map fun s =>
      .error (.malformedOutput ("<json>: " ++ String.ofList (s.toList.take 120))) := by
  intro texts
  cases hread : Value.read? (Text.trim (withoutFences t.toList)) with
  | some v =>
    refine .inl ⟨v, List.map_congr_left fun s hs => ?_⟩
    rw [readModelOutput, trim_withoutFences_of_fenced hs, hread]
  | none =>
    refine .inr (List.map_congr_left fun s hs => ?_)
    rw [readModelOutput, trim_withoutFences_of_fenced hs, hread]

end TriageFlow
