import Mathlib.Data.List.DropRight
import TriageFlow.Context.Path

/-!
Texts of paths. A path whose segments have no dots, and no blanks at their ends, is the path that
its text names (`Path.ofText_toText`). The segments of a path that some text names are such, so the
path is named by its own text too (`Path.ofText_toText_ofText`).
-/

namespace TriageFlow

namespace Text

variable {separator : Char} {piece cs : List Char}

theorem split_of_not_mem (h : separator ∉ cs) : split separator cs = (cs, []) := by
  induction cs with
  | nil => rfl
  | cons c cs ih =>
    obtain ⟨hc, hcs⟩ := List.ne_and_not_mem_of_not_mem_cons h
    simp only [split, ih hcs, if_neg hc.symm]

/-- No piece of a text that is cut has a separator. -/
theorem not_mem_of_split (separator : Char) (cs : List Char) :
    ∀ piece ∈ (split separator cs).1 :: (split separator cs).2, separator ∉ piece := by
  induction cs with
  | nil => simp [split]
  | cons c cs ih =>
    obtain ⟨hpiece, hpieces⟩ := List.forall_mem_cons.mp ih
    unfold split
    dsimp only
    split
    · exact List.forall_mem_cons.mpr ⟨List.not_mem_nil, ih⟩
    · next hc =>
      exact List.forall_mem_cons.mpr ⟨List.not_mem_cons_of_ne_of_not_mem (Ne.symm hc) hpiece,
        hpieces⟩

theorem split_append (h : separator ∉ piece) (rest : List Char) :
    split separator (piece ++ separator :: rest) =
      (piece, (split separator rest).1 :: (split separator rest).2) := by
  induction piece with
  | nil => simp [split]
  | cons c piece ih =>
    obtain ⟨hc, hpiece⟩ := List.ne_and_not_mem_of_not_mem_cons h
    simp only [List.cons_append, split, ih hpiece, if_neg hc.symm]

/-- Cutting undoes putting separators between pieces that have none. -/
theorem split_pieces {pieces : List (List Char)} (hpiece : separator ∉ piece)
    (hpieces : ∀ piece ∈ pieces, separator ∉ piece) :
    split separator (piece ++ pieces.flatMap (separator :: ·)) = (piece, pieces) := by
  induction pieces generalizing piece with
  | nil => rw [List.flatMap_nil, List.append_nil, split_of_not_mem hpiece]
  | cons next pieces ih =>
    obtain ⟨hnext, hpieces⟩ := List.forall_mem_cons.mp hpieces
    rw [List.flatMap_cons, List.cons_append, split_append hpiece, ih hnext hpieces]

theorem dropWhile_isBlank (h : ∀ c ∈ cs, isBlank c = false) : cs.dropWhile isBlank = cs := by
  cases cs with
  | nil => rfl
  | cons c cs => simp [h c List.mem_cons_self]

theorem trim_of_forall (h : ∀ c ∈ cs, isBlank c = false) : trim cs = cs := by
  rw [trim, trimStart, dropWhile_isBlank h, trimEnd,
    dropWhile_isBlank fun c hc => h c (List.mem_reverse.mp hc), List.reverse_reverse]

theorem trimEnd_eq_rdropWhile (cs : List Char) : trimEnd cs = cs.rdropWhile isBlank := rfl

/-- A trimmed text has no characters that the text has not. -/
theorem mem_of_mem_trim {c : Char} (h : c ∈ trim cs) : c ∈ cs := by
  rw [trim, trimEnd_eq_rdropWhile] at h
  exact (List.dropWhile_suffix isBlank).subset ((List.rdropWhile_prefix isBlank _).subset h)

/-- A text that starts with no blank still does without the blanks at its end. -/
theorem trimStart_trimEnd {cs : List Char} (h : trimStart cs = cs) :
    trimStart (trimEnd cs) = trimEnd cs := by
  cases hend : trimEnd cs with
  | nil => rfl
  | cons c rest =>
    have hhead : c :: rest <+: cs := by
      rw [← hend, trimEnd_eq_rdropWhile]
      exact List.rdropWhile_prefix isBlank cs
    obtain ⟨tail, rfl⟩ := hhead
    have hc : ¬isBlank c = true := by
      intro hc
      have hlength := congrArg List.length h
      rw [trimStart, List.cons_append, List.dropWhile_cons_of_pos hc, List.length_cons] at hlength
      have hle := (List.dropWhile_suffix (l := rest ++ tail) isBlank).length_le
      omega
    exact List.dropWhile_cons_of_neg hc

/-- Nothing is left to trim of a trimmed text. -/
theorem trim_trim (cs : List Char) : trim (trim cs) = trim cs := by
  have hstart : trimStart (trimStart cs) = trimStart cs := List.dropWhile_idempotent isBlank cs
  have htrim : trim (trim cs) = trimEnd (trimStart (trimEnd (trimStart cs))) := rfl
  rw [htrim, trimStart_trimEnd hstart]
  exact List.rdropWhile_idempotent isBlank (trimStart cs)

end Text

namespace Path

theorem toList_toText (p : Path) :
    p.toText.toList = p.root.toList ++ p.rest.flatMap ('.' :: ·.toList) := by
  obtain ⟨root, rest⟩ := p
  unfold toText Text.join segments
  rw [String.toList_intercalate]
  induction rest generalizing root with
  | nil => simp
  | cons next rest ih =>
    rw [List.map_cons, List.map_cons, List.intercalate_cons_cons, ← List.map_cons, ih next,
      List.flatMap_cons]
    simp

/-- The text of a path names the path. -/
theorem ofText_toText {p : Path} (hdot : ∀ s ∈ p.segments, '.' ∉ s.toList)
    (htrim : ∀ s ∈ p.segments, Text.trim s.toList = s.toList) : ofText p.toText = p := by
  obtain ⟨root, rest⟩ := p
  obtain ⟨hroot, hrest⟩ := List.forall_mem_cons.mp hdot
  have hsplit : Text.split '.' (toText ⟨root, rest⟩).toList =
      (root.toList, rest.map String.toList) := by
    rw [toList_toText, ← List.flatMap_map, Text.split_pieces hroot]
    exact List.forall_mem_map.mpr hrest
  have hsegment (s : String) (hs : s ∈ root :: rest) :
      String.ofList (Text.trim s.toList) = s := by
    rw [htrim s hs, String.ofList_toList]
  unfold ofText
  simp only [hsplit, Path.mk.injEq]
  refine ⟨hsegment root List.mem_cons_self, ?_⟩
  rw [List.map_map]
  calc rest.map _
      = rest.map id := List.map_congr_left fun s hs => hsegment s (List.mem_cons_of_mem root hs)
    _ = rest := List.map_id rest

/-- A segment of a path that a text names is a piece of the text, without the blanks at its
ends. -/
theorem exists_piece_of_mem_segments {text s : String} (h : s ∈ (ofText text).segments) :
    ∃ piece, '.' ∉ piece ∧ s = String.ofList (Text.trim piece) := by
  have hsegments : (ofText text).segments =
      ((Text.split '.' text.toList).1 :: (Text.split '.' text.toList).2).map
        fun cs => String.ofList (Text.trim cs) := rfl
  rw [hsegments, List.mem_map] at h
  obtain ⟨piece, hpiece, rfl⟩ := h
  exact ⟨piece, Text.not_mem_of_split '.' text.toList piece hpiece, rfl⟩

/-- A path that some text names is named by its own text. -/
theorem ofText_toText_ofText (text : String) : ofText (ofText text).toText = ofText text := by
  refine ofText_toText (fun s hs => ?_) fun s hs => ?_
  · obtain ⟨piece, hpiece, rfl⟩ := exists_piece_of_mem_segments hs
    rw [String.toList_ofList]
    exact fun hmem => hpiece (Text.mem_of_mem_trim hmem)
  · obtain ⟨piece, -, rfl⟩ := exists_piece_of_mem_segments hs
    rw [String.toList_ofList, Text.trim_trim]

end Path

end TriageFlow
