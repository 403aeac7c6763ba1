import TriageFlow.Proofs.Layout

/-!
Templates line by line. The name of a placeholder ends on the line it starts on, and braces that a
line leaves open open nothing on the next one. So the pieces of two texts with a line break between
them are those of the one, the break and those of the other (`pieces_append_newline`), and a
template is filled in one line at a time.
-/

namespace TriageFlow

namespace Template

/-- What follows a line has no part in the name that is ahead on it. -/
theorem nameAhead_append_newline (line rest : List Char) :
    nameAhead (line ++ '\n' :: rest) = nameAhead line := by
  fun_induction nameAhead line with
  | case1 behind => rfl
  | case2 behind hopen =>
    rw [List.cons_append, nameAhead, if_pos rfl]
    nofun
  | case3 c behind hopen hc ih =>
    rw [List.cons_append, nameAhead, if_neg hc, ih]
    intro back hbrace hback
    cases behind with
    | nil => cases hback
    | cons d behind => exact hopen behind hbrace (by rw [(List.cons.inj hback).1])
  | case4 => rfl

/-- A name that is ahead leaves room for the braces that end it. -/
theorem length_of_nameAhead {text name : List Char} (h : nameAhead text = some name) :
    name.length + 2 ≤ text.length := by
  obtain ⟨rest, hnames⟩ := nameAhead_eq_some_iff.mp h
  have hlength := congrArg List.length hnames.ended
  simp only [List.length_append, List.length_cons] at hlength
  omega

/-- The pieces of a line do not depend on what follows it. -/
theorem piecesFrom_append_newline {skip : Nat} {line : List Char} (hskip : skip ≤ line.length)
    (rest : List Char) :
    piecesFrom skip (line ++ '\n' :: rest) =
      piecesFrom skip line ++ .literal '\n' :: piecesFrom 0 rest := by
  fun_induction piecesFrom skip line with
  | case1 skip =>
    obtain rfl : skip = 0 := Nat.le_zero.mp hskip
    rfl
  | case2 skip c line ih => exact ih (Nat.le_of_succ_le_succ hskip)
  | case3 line name hname ih =>
    have hroom := length_of_nameAhead hname
    have hrest := ih (by rw [List.length_cons]; omega)
    have hname' : nameAhead (line ++ '\n' :: rest) = some name := by
      rw [nameAhead_append_newline, hname]
    simp only [List.cons_append, piecesFrom, hname'] at hrest ⊢
    rw [hrest]
  | case4 line hname ih =>
    have hrest := ih (Nat.zero_le _)
    have hname' : nameAhead (line ++ '\n' :: rest) = none := by
      rw [nameAhead_append_newline, hname]
    simp only [List.cons_append, piecesFrom, hname'] at hrest ⊢
    rw [hrest]
  | case5 c line hplain ih =>
    have hrest := ih (Nat.zero_le _)
    rw [List.cons_append, piecesFrom, hrest]
    · rfl
    -- a brace that ends the line makes no pair with the break
    · intro behind hc hbehind
      cases line with
      | nil => cases hbehind
      | cons d line => exact hplain line hc (by rw [(List.cons.inj hbehind).1])

theorem pieces_append_newline (first rest : String) :
    pieces (first ++ "\n" ++ rest) = pieces first ++ .literal '\n' :: pieces rest := by
  have htext : (first ++ "\n" ++ rest).toList = first.toList ++ '\n' :: rest.toList := by
    simp
  unfold pieces
  rw [htext, piecesFrom_append_newline (Nat.zero_le _)]

theorem interpolate_append_newline (first rest : String) (c : Context) :
    interpolate (first ++ "\n" ++ rest) c = interpolate first c ++ "\n" ++ interpolate rest c := by
  refine String.toList_inj.mp ?_
  unfold interpolate
  rw [pieces_append_newline, List.flatMap_append, List.flatMap_cons]
  simp [expand]

theorem placeholders_append_newline (first rest : String) :
    placeholders (first ++ "\n" ++ rest) = placeholders first ++ placeholders rest := by
  unfold placeholders
  rw [pieces_append_newline, List.filterMap_append, List.filterMap_cons]

/-- A template of any number of lines is filled in line by line. -/
theorem interpolate_join_lines (lines : List String) (c : Context) :
    interpolate (Text.join "\n" lines) c = Text.join "\n" (lines.map (interpolate · c)) := by
  unfold Text.join
  induction lines with
  | nil => rfl
  | cons line lines ih =>
    cases lines with
    | nil => simp only [List.map_cons, List.map_nil, String.intercalate_singleton]
    | cons next lines =>
      rw [String.intercalate_cons_cons, interpolate_append_newline, ih, List.map_cons,
        List.map_cons, List.map_cons, String.intercalate_cons_cons]

/-- No placeholder reaches over a line break, whatever braces stand before and after it: two texts
with a break between them are filled in apart, and their placeholders are those of the one and then
those of the other. -/
theorem lines_fill_apart (first rest : String) (c : Context) :
    interpolate (first ++ "\n" ++ rest) c = interpolate first c ++ "\n" ++ interpolate rest c ∧
    placeholders (first ++ "\n" ++ rest) = placeholders first ++ placeholders rest :=
  ⟨interpolate_append_newline first rest c, placeholders_append_newline first rest⟩

/-- Braces that a line leaves open are not closed on the next one. -/
example : placeholders "{{mood}} \x7b\x7bintent\n\x7d\x7d {{recall}}" =
    [⟨"mood", []⟩, ⟨"recall", []⟩] := rfl

end Template

end TriageFlow
