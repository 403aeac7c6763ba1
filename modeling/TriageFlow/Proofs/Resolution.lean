import Mathlib.Data.List.Basic
import TriageFlow.Rule.Evaluation
import TriageFlow.Template

/-!
Paths in rules and in templates. A lookup along a path passes through every path above it
(`Context.lookup_of_above`), so that a path names a value only if each path above it names one that
is not null. A rule asks this of the path just above, a template of none, and they still read a
context alike (`rules_and_templates_agree`): where the rule has a value the template shows it, and
where the rule fails the template shows nothing.
-/

namespace TriageFlow

open Json (Value)

/-! ## Paths above a path -/

namespace Path

variable {p q parent : Path}

/-- A path above another one: a proper prefix of it, of one segment at least. -/
def Above (q p : Path) : Prop := q.segments <+: p.segments ∧ q ≠ p

theorem above_iff : q.Above p ↔ q.root = p.root ∧ ∃ more, more ≠ [] ∧ q.rest ++ more = p.rest := by
  obtain ⟨root, rest⟩ := p
  obtain ⟨root', rest'⟩ := q
  unfold Above segments
  rw [List.cons_prefix_cons]
  constructor
  · rintro ⟨⟨rfl, more, hmore⟩, hne⟩
    refine ⟨rfl, more, ?_, hmore⟩
    rintro rfl
    rw [List.append_nil] at hmore
    exact hne (congrArg (Path.mk root') hmore)
  · rintro ⟨rfl, more, hne, hmore⟩
    refine ⟨⟨rfl, more, hmore⟩, fun hsame => hne ?_⟩
    obtain rfl : rest' = rest := (Path.mk.inj hsame).2
    exact List.append_right_eq_self.mp hmore

/-- A path of one segment has none above it. -/
theorem parent?_eq_none_iff : p.parent? = none ↔ p.rest = [] := by
  unfold parent?
  cases p.rest <;> simp

theorem parent?_eq_some_iff :
    p.parent? = some parent ↔ parent.root = p.root ∧ parent.rest ++ [p.last] = p.rest := by
  obtain ⟨root, rest⟩ := p
  obtain ⟨root', rest'⟩ := parent
  unfold parent? last
  rcases List.eq_nil_or_concat' rest with rfl | ⟨front, segment, rfl⟩
  · simp
  · rw [if_neg (by simp)]
    simp only [List.dropLast_concat, Option.some.injEq, Path.mk.injEq, List.getLastD_concat,
      List.append_left_inj]
    exact ⟨fun h => ⟨h.1.symm, h.2.symm⟩, fun h => ⟨h.1.symm, h.2.symm⟩⟩

theorem above_of_parent? (h : p.parent? = some parent) : parent.Above p := by
  obtain ⟨hroot, hrest⟩ := parent?_eq_some_iff.mp h
  exact above_iff.mpr ⟨hroot, [p.last], List.cons_ne_nil _ _, hrest⟩

/-- The paths above a path are the one just above it and those above that one. -/
theorem Above.of_parent? (h : p.parent? = some parent) (hq : q.Above p) :
    q = parent ∨ q.Above parent := by
  obtain ⟨hroot, hrest⟩ := parent?_eq_some_iff.mp h
  obtain ⟨hqroot, more, hne, hmore⟩ := above_iff.mp hq
  obtain ⟨front, segment, rfl⟩ := (List.eq_nil_or_concat' more).resolve_left hne
  rw [← hrest, ← List.append_assoc] at hmore
  have hfront : q.rest ++ front = parent.rest := (List.append_inj' hmore rfl).1
  have hsame : q.root = parent.root := hqroot.trans hroot.symm
  cases front with
  | nil =>
    refine .inl ?_
    rw [List.append_nil] at hfront
    obtain ⟨root, rest⟩ := q
    exact congrArg₂ Path.mk hsame hfront
  | cons first others => exact .inr (above_iff.mpr ⟨hsame, _, List.cons_ne_nil _ _, hfront⟩)

end Path

/-! ## Lookups -/

namespace Context

variable {c : Context} {p q : Path}

/-- A walk along some segments and some more is two walks. -/
theorem walk_append (v : Value) (xs ys : List String) :
    walk v (xs ++ ys) = (walk v xs).bind fun w => walk w ys := by
  induction xs generalizing v with
  | nil => rfl
  | cons segment xs ih =>
    simp only [List.cons_append, walk]
    cases child? v segment with
    | none => rfl
    | some w => exact ih w

/-- Nothing is below null. -/
theorem walk_null {segments : List String} (h : segments ≠ []) : walk .null segments = none := by
  cases segments with
  | nil => exact absurd rfl h
  | cons segment rest => rfl

/-- A path names a value that is not null. -/
def Holds (c : Context) (p : Path) : Prop := ∃ v, c.lookup p = some v ∧ v ≠ .null

theorem not_holds_iff : ¬c.Holds p ↔ c.lookup p = none ∨ c.lookup p = some .null := by
  unfold Holds
  cases h : c.lookup p with
  | none => simp
  | some v => simp

/-- A lookup passes through the value of every path above. -/
theorem lookup_of_above (c : Context) (h : q.Above p) :
    ∃ more, more ≠ [] ∧ c.lookup p = (c.lookup q).bind fun v => walk v more := by
  obtain ⟨hroot, more, hne, hmore⟩ := Path.above_iff.mp h
  refine ⟨more, hne, ?_⟩
  unfold lookup
  rw [hroot, ← hmore, Option.bind_assoc]
  exact congrArg _ (funext fun v => walk_append v q.rest more)

/-- A path names nothing if one above it names nothing, or null. -/
theorem lookup_eq_none_of_above (h : q.Above p) (hq : ¬c.Holds q) : c.lookup p = none := by
  obtain ⟨more, hne, hlookup⟩ := c.lookup_of_above h
  rw [hlookup]
  rcases not_holds_iff.mp hq with hq | hq
  · rw [hq]
    rfl
  · rw [hq]
    exact walk_null hne

theorem Holds.of_above (h : q.Above p) (hp : c.Holds p) : c.Holds q := by
  refine Classical.byContradiction fun hq => ?_
  obtain ⟨v, hv, -⟩ := hp
  rw [lookup_eq_none_of_above h hq] at hv
  cases hv

/-! ## Paths in rules -/

/-- A path has a value in a rule exactly if each path above it names one that is not null. -/
theorem resolve_eq_ok_iff (hp : p.hasEmptySegment = false) {v : Value} :
    c.resolve p = .ok v ↔ (∀ q, q.Above p → c.Holds q) ∧ (c.lookup p).getD .null = v := by
  unfold resolve
  rw [if_neg (by simp [hp])]
  cases hparent : p.parent? with
  | none =>
    have hnone (q : Path) : ¬q.Above p := by
      intro hq
      obtain ⟨-, more, hne, hmore⟩ := Path.above_iff.mp hq
      rw [Path.parent?_eq_none_iff.mp hparent] at hmore
      exact hne (List.append_eq_nil_iff.mp hmore).2
    simp [hnone]
  | some parent =>
    have habove : (∀ q, q.Above p → c.Holds q) ↔ c.Holds parent := by
      refine ⟨fun h => h parent (Path.above_of_parent? hparent), fun h q hq => ?_⟩
      rcases hq.of_parent? hparent with rfl | hq
      · exact h
      · exact h.of_above hq
    rw [habove]
    dsimp only
    split
    · next hlookup => simp [not_holds_iff.mpr (.inl hlookup)]
    · next hlookup => simp [not_holds_iff.mpr (.inr hlookup)]
    · next w hnull hlookup =>
      have hholds : c.Holds parent := ⟨w, hlookup, hnull⟩
      simp [hholds]

/-- Otherwise one of the paths above names nothing, or null. -/
theorem exists_of_resolve_eq_error (hp : p.hasEmptySegment = false) {fault : RuleFault}
    (h : c.resolve p = .error fault) : ∃ q, q.Above p ∧ ¬c.Holds q := by
  refine Classical.byContradiction fun hnone => ?_
  have hall : ∀ q, q.Above p → c.Holds q := fun q hq =>
    Classical.byContradiction fun hnot => hnone ⟨q, hq, hnot⟩
  rw [(resolve_eq_ok_iff hp).mpr ⟨hall, rfl⟩] at h
  cases h

/-- Without a path above there is nothing to fail. -/
theorem exists_resolve_of_root (hp : p.hasEmptySegment = false) (hroot : p.rest = []) :
    ∃ v, c.resolve p = .ok v := by
  cases h : c.resolve p with
  | ok v => exact ⟨v, rfl⟩
  | error fault =>
    obtain ⟨q, hq, -⟩ := exists_of_resolve_eq_error hp h
    obtain ⟨-, more, hne, hmore⟩ := Path.above_iff.mp hq
    rw [hroot] at hmore
    exact absurd (List.append_eq_nil_iff.mp hmore).2 hne

end Context

/-! ## Paths in templates -/

/-- A missing value is shown as null is. -/
theorem Template.render_getD (v : Option Value) : render (some (v.getD .null)) = render v := by
  cases v with
  | none => rfl
  | some v => rfl

/-- Rules and templates read a context alike along a path without empty segments. Where a rule has
a value, a placeholder of the path shows this value, and each path above names a value that is not
null; where a rule fails, the placeholder shows nothing, and a path above names nothing, or null. A
path of one segment never fails. -/
theorem rules_and_templates_agree (c : Context) (p : Path) (hp : p.hasEmptySegment = false) :
    (∀ v, (Predicate.field p).evaluate c = .ok v →
      Template.render (c.lookup p) = Template.render (some v) ∧
      (∀ name, Template.pathOf name = p →
        Template.expand c (.placeholder name) = (Template.render (some v)).toList) ∧
      ∀ q, q.Above p → ∃ w, c.lookup q = some w ∧ w ≠ .null) ∧
    (∀ fault, (Predicate.field p).evaluate c = .error fault →
      Template.render (c.lookup p) = "" ∧
      (∀ name, Template.pathOf name = p → Template.expand c (.placeholder name) = []) ∧
      ∃ q, q.Above p ∧ (c.lookup q = none ∨ c.lookup q = some .null)) ∧
    (p.rest = [] → ∃ v, (Predicate.field p).evaluate c = .ok v) := by
  have hfield : (Predicate.field p).evaluate c = c.resolve p := by
    rw [Predicate.evaluate]
  have hexpand (name : List Char) (hname : Template.pathOf name = p) :
      Template.expand c (.placeholder name) = (Template.render (c.lookup p)).toList := by
    rw [Template.expand, hname]
  rw [hfield]
  refine ⟨fun v h => ?_, fun fault h => ?_, Context.exists_resolve_of_root hp⟩
  · obtain ⟨habove, hvalue⟩ := (Context.resolve_eq_ok_iff hp).mp h
    have hshown : Template.render (c.lookup p) = Template.render (some v) := by
      rw [← hvalue, Template.render_getD]
    refine ⟨hshown, fun name hname => ?_, habove⟩
    rw [hexpand name hname, hshown]
  · obtain ⟨q, hq, hnot⟩ := Context.exists_of_resolve_eq_error hp h
    have hshown : Template.render (c.lookup p) = "" := by
      rw [Context.lookup_eq_none_of_above hq hnot]
      rfl
    refine ⟨hshown, fun name hname => ?_, q, hq, Context.not_holds_iff.mp hnot⟩
    rw [hexpand name hname, hshown]
    rfl

/-- A record that holds null in a list: the null is shown as nothing and is a value in a rule, what
is below it is shown as nothing and has no value in a rule. -/
theorem null_item_read_alike :
    let c := Context.start (.object [("items", .array [.null])]) "trace"
    (Predicate.field ⟨"input", ["items", "0"]⟩).evaluate c = .ok .null ∧
    Template.render (c.lookup ⟨"input", ["items", "0"]⟩) = Template.render (some .null) ∧
    (Predicate.field ⟨"input", ["items", "0", "id"]⟩).evaluate c =
      .error (.undefinedParent "id" ⟨"input", ["items", "0"]⟩) ∧
    Template.render (c.lookup ⟨"input", ["items", "0", "id"]⟩) = "" := by
  intro c
  have hnull : (Predicate.field ⟨"input", ["items", "0"]⟩).evaluate c = .ok .null := rfl
  have hbelow : (Predicate.field ⟨"input", ["items", "0", "id"]⟩).evaluate c =
      .error (.undefinedParent "id" ⟨"input", ["items", "0"]⟩) := rfl
  have hitem := rules_and_templates_agree c ⟨"input", ["items", "0"]⟩ (by decide)
  have hid := rules_and_templates_agree c ⟨"input", ["items", "0", "id"]⟩ (by decide)
  exact ⟨hnull, (hitem.1 _ hnull).1, hbelow, (hid.2.1 _ hbelow).1⟩

end TriageFlow
