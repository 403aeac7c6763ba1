import TriageFlow.Template

/-!
The layout of a template: its literal texts and, between them, the names of its placeholders. A
template has exactly one layout (`cuts_iff`), which is found without a context, and a context fills
it: the placeholders are replaced, each by the text of what it names, and the literal texts stay as
they are (`interpolate_eq_fill`). What is filled in is not looked at again, whatever braces it has.
-/

namespace TriageFlow

namespace Template

/-! ## Names -/

/-- A name in braces. -/
def braced (name : List Char) : List Char := '{' :: '{' :: (name ++ ['}', '}'])

/-- A text starts with a name that a pair of closing braces ends on the same line, and no pair
before that one. -/
structure Names (text name rest : List Char) : Prop where
  ended : text = name ++ '}' :: '}' :: rest
  line : '\n' ∉ name
  nearest : ∀ front back, text = front ++ '}' :: '}' :: back → name.length ≤ front.length

/-- A placeholder starts at the head of a text: a pair of opening braces, and on the same line a
pair of closing ones behind it. -/
def Opens (text : List Char) : Prop := ∃ name rest, text = braced name ++ rest ∧ '\n' ∉ name

theorem braced_append (name rest : List Char) :
    braced name ++ rest = '{' :: '{' :: (name ++ '}' :: '}' :: rest) := by
  simp [braced]

/-- The head of a text belongs to its name unless a pair of closing braces starts there. -/
theorem names_cons_iff {c : Char} {text name rest : List Char}
    (hopen : ∀ back, c :: text ≠ '}' :: '}' :: back) :
    Names (c :: text) name rest ↔
      c ≠ '\n' ∧ ∃ name', name = c :: name' ∧ Names text name' rest := by
  constructor
  · intro h
    cases name with
    | nil => exact absurd h.ended (hopen rest)
    | cons d name =>
      obtain ⟨rfl, htext⟩ := List.cons.inj h.ended
      obtain ⟨hd, hline⟩ := List.ne_and_not_mem_of_not_mem_cons h.line
      refine ⟨hd.symm, name, rfl, htext, hline, fun front back hfront => ?_⟩
      exact Nat.le_of_succ_le_succ (h.nearest (c :: front) back (congrArg (c :: ·) hfront))
  · rintro ⟨hc, name, rfl, h⟩
    refine ⟨congrArg (c :: ·) h.ended, List.not_mem_cons_of_ne_of_not_mem hc.symm h.line, ?_⟩
    intro front back hfront
    cases front with
    | nil => exact absurd hfront (hopen back)
    | cons d front => exact Nat.succ_le_succ (h.nearest front back (List.cons.inj hfront).2)

theorem nameAhead_eq_some_iff {text name : List Char} :
    nameAhead text = some name ↔ ∃ rest, Names text name rest := by
  fun_induction nameAhead text generalizing name with
  | case1 rest =>
    constructor
    · intro h
      obtain rfl := Option.some.inj h
      exact ⟨rest, rfl, List.not_mem_nil, fun _ _ _ => Nat.zero_le _⟩
    · rintro ⟨rest', h⟩
      rw [List.eq_nil_of_length_eq_zero (Nat.le_zero.mp (h.nearest [] rest rfl))]
  | case2 text hopen =>
    simp only [reduceCtorEq, false_iff]
    rintro ⟨rest, h⟩
    exact ((names_cons_iff (by simp)).mp h).1 rfl
  | case3 c text hopen hc ih =>
    have hopen (back : List Char) : c :: text ≠ '}' :: '}' :: back := fun h =>
      hopen back (List.cons.inj h).1 (List.cons.inj h).2
    simp only [names_cons_iff hopen, Option.map_eq_some_iff, ih]
    constructor
    · rintro ⟨name, ⟨rest, h⟩, rfl⟩
      exact ⟨rest, hc, name, rfl, h⟩
    · rintro ⟨rest, -, name, rfl, h⟩
      exact ⟨name, ⟨rest, h⟩, rfl⟩
  | case4 =>
    simp only [reduceCtorEq, false_iff]
    rintro ⟨rest, h⟩
    simpa using h.ended

/-- Where some pair of closing braces follows on the line, there is a nearest one. -/
theorem exists_names (rest : List Char) {name : List Char} (hline : '\n' ∉ name) :
    ∃ name' rest', Names (name ++ '}' :: '}' :: rest) name' rest' := by
  induction name with
  | nil => exact ⟨[], rest, rfl, List.not_mem_nil, fun _ _ _ => Nat.zero_le _⟩
  | cons c name ih =>
    obtain ⟨hc, hline⟩ := List.ne_and_not_mem_of_not_mem_cons hline
    by_cases hopen : ∃ back, (c :: name) ++ '}' :: '}' :: rest = '}' :: '}' :: back
    · obtain ⟨back, hback⟩ := hopen
      exact ⟨[], back, hback, List.not_mem_nil, fun _ _ _ => Nat.zero_le _⟩
    · obtain ⟨name', rest', h⟩ := ih hline
      exact ⟨c :: name', rest',
        (names_cons_iff fun back hback => hopen ⟨back, hback⟩).mpr ⟨hc.symm, name', rfl, h⟩⟩

theorem opens_iff {text : List Char} :
    Opens text ↔ ∃ name rest rest', text = '{' :: '{' :: rest' ∧ Names rest' name rest := by
  constructor
  · rintro ⟨name, rest, rfl, hline⟩
    obtain ⟨name', rest', h⟩ := exists_names rest hline
    exact ⟨name', rest', _, braced_append name rest, h⟩
  · rintro ⟨name, rest, rest', rfl, h⟩
    refine ⟨name, rest, ?_, h.line⟩
    rw [braced_append, ← h.ended]

theorem not_opens_nil : ¬Opens [] := by
  rintro ⟨name, rest, h, -⟩
  cases h

/-! ## Pieces -/

theorem piecesFrom_eq_drop (skip : Nat) (text : List Char) :
    piecesFrom skip text = piecesFrom 0 (text.drop skip) := by
  induction skip generalizing text with
  | zero => rfl
  | succ skip ih =>
    cases text with
    | nil => rfl
    | cons c text => exact ih text

/-- A placeholder is passed over with its braces. -/
theorem piecesFrom_of_names {text name rest : List Char} (h : Names text name rest) :
    piecesFrom 0 ('{' :: '{' :: text) = .placeholder name :: piecesFrom 0 rest := by
  have hname := nameAhead_eq_some_iff.mpr ⟨rest, h⟩
  simp only [piecesFrom, hname]
  rw [piecesFrom_eq_drop, h.ended]
  congr 2
  simp

/-- A character at which no placeholder starts stands for itself. -/
theorem piecesFrom_of_not_opens {c : Char} {text : List Char} (h : ¬Opens (c :: text)) :
    piecesFrom 0 (c :: text) = .literal c :: piecesFrom 0 text := by
  by_cases hbraces : ∃ rest, c = '{' ∧ text = '{' :: rest
  · obtain ⟨rest, rfl, rfl⟩ := hbraces
    cases hname : nameAhead rest with
    | none => simp only [piecesFrom, hname]
    | some name =>
      obtain ⟨behind, hnames⟩ := nameAhead_eq_some_iff.mp hname
      exact absurd (opens_iff.mpr ⟨name, behind, rest, rfl, hnames⟩) h
  · rw [piecesFrom]
    exact fun rest hc htext => hbraces ⟨rest, hc, htext⟩

/-- A literal text stands for itself, character by character. -/
theorem piecesFrom_append (literal rest : List Char)
    (h : ∀ back, back ≠ [] → back <:+ literal → ¬Opens (back ++ rest)) :
    piecesFrom 0 (literal ++ rest) = literal.map .literal ++ piecesFrom 0 rest := by
  induction literal with
  | nil => rfl
  | cons c literal ih =>
    have hc : ¬Opens (c :: (literal ++ rest)) := h _ (List.cons_ne_nil _ _) List.suffix_rfl
    rw [List.cons_append, piecesFrom_of_not_opens hc,
      ih fun back hne hback => h back hne (hback.trans (List.suffix_cons c literal))]
    rfl

/-! ## Layouts -/

/-- A placeholder with the literal text before it. -/
structure Slot where
  literal : List Char
  name : List Char

/-- The placeholders of a template, and the literal text behind the last one. -/
structure Layout where
  slots : List Slot
  tail : List Char

namespace Layout

/-- The names of the placeholders, in order. -/
def names (x : Layout) : List (List Char) := x.slots.map Slot.name

/-- The text in which each placeholder is replaced by the text in its turn. -/
def fill (x : Layout) (texts : List (List Char)) : List Char :=
  (List.zipWith (fun slot text => slot.literal ++ text) x.slots texts).flatten ++ x.tail

/-- A layout with one more literal character at its head. -/
def push (c : Char) : Layout → Layout
  | ⟨[], tail⟩ => ⟨[], c :: tail⟩
  | ⟨slot :: slots, tail⟩ => ⟨⟨c :: slot.literal, slot.name⟩ :: slots, tail⟩

/-- A layout with one more placeholder at its head. -/
def openWith (name : List Char) (x : Layout) : Layout := ⟨⟨[], name⟩ :: x.slots, x.tail⟩

/-- The layout that some pieces make up. -/
def ofPieces : List Piece → Layout
  | [] => ⟨[], []⟩
  | .literal c :: rest => (ofPieces rest).push c
  | .placeholder name :: rest => (ofPieces rest).openWith name

end Layout

/-- The layout of a template. -/
def layout (template : String) : Layout := .ofPieces (pieces template)

/-- A text is cut from left to right: the next placeholder starts where the first one can, and ends
with the nearest pair of closing braces. -/
inductive Cuts : List Char → Layout → Prop
  | plain {text : List Char} (closed : ∀ back, back <:+ text → ¬Opens back) : Cuts text ⟨[], text⟩
  | slot {literal name rest : List Char} {x : Layout}
      (first : ∀ back, back ≠ [] → back <:+ literal → ¬Opens (back ++ (braced name ++ rest)))
      (line : '\n' ∉ name)
      (nearest : ∀ front back, name ++ '}' :: '}' :: rest = front ++ '}' :: '}' :: back →
        name.length ≤ front.length)
      (behind : Cuts rest x) :
      Cuts (literal ++ (braced name ++ rest)) ⟨⟨literal, name⟩ :: x.slots, x.tail⟩

namespace Layout

variable {x : Layout} {text : List Char}

theorem ofPieces_literals (literal : List Char) (rest : List Piece) :
    ofPieces (literal.map .literal ++ rest) = literal.foldr push (ofPieces rest) := by
  induction literal with
  | nil => rfl
  | cons c literal ih => exact congrArg (push c) ih

theorem foldr_push_tail (literal tail : List Char) :
    literal.foldr push ⟨[], tail⟩ = ⟨[], literal ++ tail⟩ := by
  induction literal with
  | nil => rfl
  | cons c literal ih => rw [List.foldr_cons, ih]; rfl

theorem foldr_push_slot (literal : List Char) (slot : Slot) (slots : List Slot) (tail : List Char) :
    literal.foldr push ⟨slot :: slots, tail⟩ =
      ⟨⟨literal ++ slot.literal, slot.name⟩ :: slots, tail⟩ := by
  induction literal with
  | nil => rfl
  | cons c literal ih => rw [List.foldr_cons, ih]; rfl

/-! ## The one layout of a template -/

theorem cuts_push {c : Char} (hc : ¬Opens (c :: text)) (h : Cuts text x) :
    Cuts (c :: text) (x.push c) := by
  cases h with
  | plain closed =>
    refine .plain fun back hback => ?_
    rcases List.suffix_cons_iff.mp hback with rfl | hback
    · exact hc
    · exact closed back hback
  | @slot literal name rest y first line nearest behind =>
    refine (.slot (fun back hne hback => ?_) line nearest behind :
      Cuts (c :: literal ++ (braced name ++ rest)) _)
    rcases List.suffix_cons_iff.mp hback with rfl | hback
    · exact hc
    · exact first back hne hback

theorem cuts_openWith {name rest : List Char} (hnames : Names text name rest) (h : Cuts rest x) :
    Cuts ('{' :: '{' :: text) (x.openWith name) := by
  have hslot : Cuts ([] ++ (braced name ++ rest)) ⟨⟨[], name⟩ :: x.slots, x.tail⟩ := by
    refine .slot (fun back hne hback => absurd (List.suffix_nil.mp hback) hne) hnames.line ?_ h
    intro front back hfront
    exact hnames.nearest front back (hnames.ended.trans hfront)
  rw [List.nil_append, braced_append, ← hnames.ended] at hslot
  exact hslot

/-- The pieces of a text cut it. -/
theorem cuts_ofPieces (text : List Char) : Cuts text (ofPieces (piecesFrom 0 text)) := by
  induction hlength : text.length using Nat.strongRecOn generalizing text with
  | _ n ih =>
    by_cases hopens : Opens text
    · obtain ⟨name, rest, rest', rfl, hnames⟩ := opens_iff.mp hopens
      rw [piecesFrom_of_names hnames]
      refine cuts_openWith hnames (ih rest.length ?_ rest rfl)
      rw [← hlength, hnames.ended]
      simp only [List.length_cons, List.length_append]
      omega
    · cases text with
      | nil => exact .plain fun back hback => by rw [List.suffix_nil.mp hback]; exact not_opens_nil
      | cons c text =>
        rw [piecesFrom_of_not_opens hopens]
        refine cuts_push hopens (ih text.length ?_ text rfl)
        rw [← hlength]
        exact Nat.lt_succ_self _

/-- Nothing else cuts it. -/
theorem eq_ofPieces_of_cuts (h : Cuts text x) : x = ofPieces (piecesFrom 0 text) := by
  induction h with
  | @plain text closed =>
    have hpieces := piecesFrom_append text [] fun back _ hback => by
      rw [List.append_nil]
      exact closed back hback
    rw [List.append_nil] at hpieces
    rw [hpieces, ofPieces_literals]
    exact ((foldr_push_tail text []).trans (by rw [List.append_nil])).symm
  | @slot literal name rest x first line nearest behind ih =>
    have hnames : Names (name ++ '}' :: '}' :: rest) name rest := ⟨rfl, line, nearest⟩
    rw [piecesFrom_append _ _ first, ofPieces_literals, braced_append, piecesFrom_of_names hnames]
    have hopen : ofPieces (.placeholder name :: piecesFrom 0 rest) =
        ⟨⟨[], name⟩ :: x.slots, x.tail⟩ := by
      rw [ih]
      rfl
    rw [hopen, foldr_push_slot, List.append_nil]

end Layout

/-- A template has one layout. -/
theorem cuts_iff {template : String} {x : Layout} :
    Cuts template.toList x ↔ x = layout template :=
  ⟨Layout.eq_ofPieces_of_cuts, fun h => h ▸ Layout.cuts_ofPieces _⟩

/-! ## Filling in -/

namespace Layout

variable {x : Layout}

theorem fill_names (x : Layout) (f : List Char → List Char) :
    x.fill (x.names.map f) =
      x.slots.flatMap (fun slot => slot.literal ++ f slot.name) ++ x.tail := by
  unfold fill names
  rw [List.map_map, List.zipWith_map_right, List.zipWith_self]
  rfl

theorem fill_push (c : Char) (x : Layout) (f : List Char → List Char) :
    (x.push c).fill ((x.push c).names.map f) = c :: x.fill (x.names.map f) := by
  obtain ⟨slots, tail⟩ := x
  cases slots with
  | nil => rfl
  | cons slot slots =>
    rw [fill_names, fill_names]
    rfl

theorem fill_openWith (name : List Char) (x : Layout) (f : List Char → List Char) :
    (x.openWith name).fill ((x.openWith name).names.map f) =
      f name ++ x.fill (x.names.map f) := by
  rw [fill_names, fill_names, ← List.append_assoc]
  rfl

/-- Pieces with a text for each are their layout with the texts of the placeholders. -/
theorem flatMap_eq_fill {f : Piece → List Char} (hliteral : ∀ c, f (.literal c) = [c])
    (pieces : List Piece) : pieces.flatMap f =
      (ofPieces pieces).fill ((ofPieces pieces).names.map fun name => f (.placeholder name)) := by
  induction pieces with
  | nil => rfl
  | cons piece rest ih =>
    rw [List.flatMap_cons, ih]
    cases piece with
    | literal c => rw [hliteral, ofPieces, fill_push]; rfl
    | placeholder name => rw [ofPieces, fill_openWith]

/-- A text is its layout with the names in their braces. -/
theorem fill_braced {text : List Char} (h : Cuts text x) : x.fill (x.names.map braced) = text := by
  induction h with
  | plain closed => rfl
  | slot first line nearest behind ih =>
    rw [fill_names] at ih ⊢
    rw [List.flatMap_cons, List.append_assoc, List.append_assoc, ih]

theorem names_push (c : Char) (x : Layout) : (x.push c).names = x.names := by
  obtain ⟨slots, tail⟩ := x
  cases slots with
  | nil => rfl
  | cons slot slots => rfl

/-- The names of some pieces are those of their placeholders. -/
theorem map_names_ofPieces {α : Type} (f : List Char → α) (pieces : List Piece) :
    (ofPieces pieces).names.map f = pieces.filterMap fun
      | .literal _ => none
      | .placeholder name => some (f name) := by
  induction pieces with
  | nil => rfl
  | cons piece rest ih =>
    cases piece with
    | literal c => rw [ofPieces, names_push, ih]; rfl
    | placeholder name => exact congrArg (f name :: ·) ih

end Layout

theorem placeholders_eq_map_names (template : String) :
    placeholders template = (layout template).names.map pathOf :=
  (Layout.map_names_ofPieces pathOf (pieces template)).symm

/-- A context fills the layout of a template with the values of its placeholders. -/
theorem interpolate_eq_fill (template : String) (c : Context) :
    (interpolate template c).toList = (layout template).fill
      ((placeholders template).map fun path => (render (c.lookup path)).toList) := by
  unfold interpolate
  rw [String.toList_ofList, Layout.flatMap_eq_fill fun _ => rfl, placeholders_eq_map_names,
    List.map_map]
  rfl

/-- Contexts in which the paths of its placeholders name the same values fill a template alike. -/
theorem interpolate_congr {c c' : Context} {template : String}
    (h : ∀ path ∈ placeholders template, c.lookup path = c'.lookup path) :
    interpolate template c = interpolate template c' := by
  have hvalues : ((placeholders template).map fun path => (render (c.lookup path)).toList) =
      (placeholders template).map fun path => (render (c'.lookup path)).toList :=
    List.map_congr_left fun path hpath => by rw [h path hpath]
  refine String.toList_inj.mp ?_
  rw [interpolate_eq_fill, interpolate_eq_fill, hvalues]

/-- A template has one layout, which is found from the left without a context: it holds the names
of the placeholders, and the template itself with their braces filled in. To interpolate is to fill
in the values of the placeholders instead, with every literal text as it is, and so only the values
of the placeholders matter. -/
theorem interpolate_fills_layout (template : String) :
    (∀ x, Cuts template.toList x ↔ x = layout template) ∧
    placeholders template = (layout template).names.map pathOf ∧
    (layout template).fill ((layout template).names.map braced) = template.toList ∧
    (∀ c, (interpolate template c).toList = (layout template).fill
      ((placeholders template).map fun path => (render (c.lookup path)).toList)) ∧
    ∀ c c', (∀ path ∈ placeholders template, c.lookup path = c'.lookup path) →
      interpolate template c = interpolate template c' := by
  exact ⟨fun x => cuts_iff, placeholders_eq_map_names template,
    Layout.fill_braced (cuts_iff.mpr rfl), interpolate_eq_fill template,
    fun c c' hsame => interpolate_congr hsame⟩

/-- A message that is itself a placeholder stands as it came, also where a brace follows it, and two
records with this message fill the template alike. -/
theorem echo_fills_layout :
    let c := Context.start (.object [("message", .string "{{content}}")]) "first"
    let c' := Context.start (.object [("message", .string "{{content}}"), ("text", .null)]) "second"
    placeholders "{{content}}\x7d" = [⟨"content", []⟩] ∧
    (∀ path ∈ placeholders "{{content}}\x7d", c.lookup path = c'.lookup path) ∧
    interpolate "{{content}}\x7d" c = "{{content}}\x7d" ∧
    interpolate "{{content}}\x7d" c = interpolate "{{content}}\x7d" c' := by
  intro c c'
  have hnames : placeholders "{{content}}\x7d" = [⟨"content", []⟩] := rfl
  have hsame : ∀ path ∈ placeholders "{{content}}\x7d", c.lookup path = c'.lookup path := by
    intro path hpath
    rw [hnames, List.mem_singleton] at hpath
    rw [hpath]
    rfl
  exact ⟨hnames, hsame, by decide +kernel, (interpolate_fills_layout _).2.2.2.2 c c' hsame⟩

end Template

end TriageFlow
