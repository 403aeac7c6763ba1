import TriageFlow.Proofs.FloatOrder
import TriageFlow.Proofs.NearestFloat
import TriageFlow.Proofs.Roundtrip

/-!
The comparison operators agree with each other. Two numbers and two strings have one order that
the four order operators and equality read (`Comparison.exists_order`), and other pairs have
none. Loose equality is structural but for numbers, which it compares by size, and is an
equivalence of the values in which every number is one (`Json.Value.IsDefinite`), as all numbers
are that a text can hold (`IsStored.isDefinite`).
-/

namespace TriageFlow

namespace Json

/-! ## Numbers -/

namespace Number

/-- A number that is one, and not the result of an undefined operation. -/
def IsDefinite (n : Number) : Prop := n.toFloat.isNaN = false

theorem natAbs_lt_of_isStored {n : Int} (h : (whole n).IsStored) : n.natAbs < 2 ^ 64 := by
  have hlow : -(2 ^ 63 : Int) ≤ n := h.1
  have hhigh : n ≤ ((2 ^ 64 - 1 : Nat) : Int) := h.2
  omega

theorem log2_le_of_isStored {n : Int} (h : (whole n).IsStored) : n.natAbs.log2 ≤ 1022 := by
  have hlt := natAbs_lt_of_isStored h
  by_cases hzero : n.natAbs = 0
  · rw [hzero]
    decide
  · have hlog := (Nat.log2_lt hzero).mpr hlt
    omega

/-- The float of a stored whole number stands for the nearest number with room. -/
theorem standsFor_of_isStored {n : Int} (h : (whole n).IsStored) :
    Decimal.StandsFor (whole n).toFloat.toModel.unpack (Decimal.nearestInt n) :=
  Decimal.standsFor_ofInt (log2_le_of_isStored h)

theorem IsStored.isDefinite {n : Number} (h : n.IsStored) : n.IsDefinite := by
  cases n with
  | whole n => exact (standsFor_of_isStored h).isNaN
  | real x => exact Unpacked.isNaN_of_isFinite h

variable {l m n : Number}

theorem beq_iff : m.beq n = true ↔
    (∃ a, m = whole a ∧ n = whole a) ∨ ∃ x y, m = real x ∧ n = real y ∧ (x == y) = true := by
  constructor
  · intro h
    match m, n with
    | whole a, whole b => exact .inl ⟨a, rfl, congrArg whole (beq_iff_eq.mp h).symm⟩
    | real x, real y => exact .inr ⟨x, y, rfl, rfl, h⟩
    | whole _, real _ => exact absurd h Bool.false_ne_true
    | real _, whole _ => exact absurd h Bool.false_ne_true
  · intro h
    obtain ⟨a, hm, hn⟩ | ⟨x, y, hm, hn, hxy⟩ := h
    · rw [hm, hn]
      exact beq_self_eq_true a
    · rw [hm, hn]
      exact hxy

theorem beq_refl (h : n.IsDefinite) : n.beq n = true := by
  cases n with
  | whole n => exact beq_self_eq_true n
  | real x => exact Comparison.float_beq_refl h

theorem beq_symm (h : m.beq n = true) : n.beq m = true := by
  obtain ⟨a, hm, hn⟩ | ⟨x, y, hm, hn, hxy⟩ := beq_iff.mp h
  · exact beq_iff.mpr (.inl ⟨a, hn, hm⟩)
  · exact beq_iff.mpr (.inr ⟨y, x, hn, hm, BEq.symm hxy⟩)

theorem beq_trans (h : l.beq m = true) (h' : m.beq n = true) : l.beq n = true := by
  obtain ⟨a, hl, hm⟩ | ⟨x, y, hl, hm, hxy⟩ := beq_iff.mp h
  · rw [hl, ← hm]
    exact h'
  · obtain ⟨b, hm', -⟩ | ⟨y', z, hm', hn, hyz⟩ := beq_iff.mp h'
    · rw [hm] at hm'
      exact absurd hm' nofun
    · rw [hm] at hm'
      cases hm'
      exact beq_iff.mpr (.inr ⟨x, z, hl, hn, BEq.trans hxy hyz⟩)

end Number

/-! ## Structural equality -/

section Pairwise

variable {α : Type} {R : α → α → Prop} {xs ys zs : List α}

theorem forall₂_symm (hxy : List.Forall₂ R xs ys) (h : ∀ x ∈ xs, ∀ y, R x y → R y x) :
    List.Forall₂ R ys xs := by
  induction hxy with
  | nil => exact .nil
  | cons hfirst _ ih =>
    obtain ⟨hx, hxs⟩ := List.forall_mem_cons.mp h
    exact .cons (hx _ hfirst) (ih hxs)

theorem forall₂_trans (hxy : List.Forall₂ R xs ys) (hyz : List.Forall₂ R ys zs)
    (h : ∀ x ∈ xs, ∀ y z, R x y → R y z → R x z) : List.Forall₂ R xs zs := by
  induction hxy generalizing zs with
  | nil => exact hyz
  | cons hfirst _ ih =>
    obtain ⟨hx, hxs⟩ := List.forall_mem_cons.mp h
    cases hyz with
    | cons hsecond hrest => exact .cons (hx _ _ hfirst hsecond) (ih hrest hxs)

end Pairwise

namespace Value

variable {u v w : Value} {items items' : List Value} {fields fields' : Fields}

/-- A value in which every number is one. -/
def IsDefinite (v : Value) : Prop := ∀ n ∈ v.numbers, n.IsDefinite

theorem IsStored.isDefinite (h : v.IsStored) : v.IsDefinite := fun n hn =>
  (h.numbers n hn).isDefinite

theorem beqItems_iff :
    beqItems items items' = true ↔ List.Forall₂ (fun v w => v.beq w = true) items items' := by
  induction items generalizing items' with
  | nil => cases items' <;> simp [beqItems]
  | cons v items ih => cases items' <;> simp [beqItems, ih]

theorem beqFields_iff : beqFields fields fields' = true ↔
    List.Forall₂ (fun f g => f.1 = g.1 ∧ f.2.beq g.2 = true) fields fields' := by
  induction fields generalizing fields' with
  | nil => cases fields' <;> simp [beqFields]
  | cons f fields ih => cases fields' <;> simp [beqFields, ih]

/-- What has no parts and is no number equals nothing but itself. -/
theorem beq_plain_iff (hv : v = null ∨ (∃ b, v = bool b) ∨ ∃ s, v = string s) :
    v.beq w = true ↔ w = v := by
  obtain hv | ⟨b, hv⟩ | ⟨s, hv⟩ := hv
  · cases w <;> simp [hv, beq]
  · cases w <;> simp [hv, beq, @eq_comm _ b]
  · cases w <;> simp [hv, beq, @eq_comm _ s]

theorem beq_array_iff : (array items).beq w = true ↔
    ∃ items', w = array items' ∧ List.Forall₂ (fun v w => v.beq w = true) items items' := by
  constructor
  · intro h
    match w with
    | array items' => exact ⟨items', rfl, beqItems_iff.mp h⟩
    | null | bool _ | number _ | string _ | object _ => exact absurd h Bool.false_ne_true
  · intro ⟨items', hw, hitems⟩
    rw [hw]
    exact beqItems_iff.mpr hitems

theorem beq_object_iff : (object fields).beq w = true ↔ ∃ fields', w = object fields' ∧
    List.Forall₂ (fun f g => f.1 = g.1 ∧ f.2.beq g.2 = true) fields fields' := by
  constructor
  · intro h
    match w with
    | object fields' => exact ⟨fields', rfl, beqFields_iff.mp h⟩
    | null | bool _ | number _ | string _ | array _ => exact absurd h Bool.false_ne_true
  · intro ⟨fields', hw, hfields⟩
    rw [hw]
    exact beqFields_iff.mpr hfields

theorem beq_number_iff {n : Number} :
    (number n).beq w = true ↔ ∃ n', w = number n' ∧ n.beq n' = true := by
  constructor
  · intro h
    match w with
    | number n' => exact ⟨n', rfl, h⟩
    | null | bool _ | string _ | array _ | object _ => exact absurd h Bool.false_ne_true
  · intro ⟨n', hw, hn⟩
    rw [hw]
    exact hn

theorem beq_refl (h : v.IsDefinite) : v.beq v = true := by
  induction v using inductionOn with
  | null => rfl
  | bool b => exact beq_self_eq_true b
  | number n => exact Number.beq_refl (h n (List.mem_singleton_self n))
  | string s => exact beq_self_eq_true s
  | array items ih =>
    rw [IsDefinite, forall_numbers_array] at h
    refine beq_array_iff.mpr ⟨items, rfl, List.forall₂_same.mpr ?_⟩
    intro v hv
    exact ih v hv (h v hv)
  | object fields ih =>
    rw [IsDefinite, forall_numbers_object] at h
    refine beq_object_iff.mpr ⟨fields, rfl, List.forall₂_same.mpr ?_⟩
    intro f hf
    exact ⟨rfl, ih f hf (h f hf)⟩

theorem beq_symm (h : v.beq w = true) : w.beq v = true := by
  induction v using inductionOn generalizing w with
  | null =>
    cases (beq_plain_iff (.inl rfl)).mp h
    exact h
  | bool b =>
    cases (beq_plain_iff (.inr (.inl ⟨b, rfl⟩))).mp h
    exact h
  | string s =>
    cases (beq_plain_iff (.inr (.inr ⟨s, rfl⟩))).mp h
    exact h
  | number n =>
    obtain ⟨n', hw, hn⟩ := beq_number_iff.mp h
    rw [hw]
    exact beq_number_iff.mpr ⟨n, rfl, Number.beq_symm hn⟩
  | array items ih =>
    obtain ⟨items', hw, hitems⟩ := beq_array_iff.mp h
    rw [hw]
    refine beq_array_iff.mpr ⟨items, rfl, forall₂_symm hitems ?_⟩
    intro v hv w hvw
    exact ih v hv hvw
  | object fields ih =>
    obtain ⟨fields', hw, hfields⟩ := beq_object_iff.mp h
    rw [hw]
    refine beq_object_iff.mpr ⟨fields, rfl, forall₂_symm hfields ?_⟩
    intro f hf g hfg
    exact ⟨hfg.1.symm, ih f hf hfg.2⟩

theorem beq_trans (h : u.beq v = true) (h' : v.beq w = true) : u.beq w = true := by
  induction u using inductionOn generalizing v w with
  | null =>
    cases (beq_plain_iff (.inl rfl)).mp h
    exact h'
  | bool b =>
    cases (beq_plain_iff (.inr (.inl ⟨b, rfl⟩))).mp h
    exact h'
  | string s =>
    cases (beq_plain_iff (.inr (.inr ⟨s, rfl⟩))).mp h
    exact h'
  | number n =>
    obtain ⟨n', hv, hn⟩ := beq_number_iff.mp h
    rw [hv] at h'
    obtain ⟨n'', hw, hn'⟩ := beq_number_iff.mp h'
    exact beq_number_iff.mpr ⟨n'', hw, Number.beq_trans hn hn'⟩
  | array items ih =>
    obtain ⟨items', hv, hitems⟩ := beq_array_iff.mp h
    rw [hv] at h'
    obtain ⟨items'', hw, hitems'⟩ := beq_array_iff.mp h'
    refine beq_array_iff.mpr ⟨items'', hw, forall₂_trans hitems hitems' ?_⟩
    intro u hu v w huv hvw
    exact ih u hu huv hvw
  | object fields ih =>
    obtain ⟨fields', hv, hfields⟩ := beq_object_iff.mp h
    rw [hv] at h'
    obtain ⟨fields'', hw, hfields'⟩ := beq_object_iff.mp h'
    refine beq_object_iff.mpr ⟨fields'', hw, forall₂_trans hfields hfields' ?_⟩
    intro e he f g hef hfg
    exact ⟨hef.1.trans hfg.1, ih e he hef.2 hfg.2⟩

end Value

end Json

/-! ## Loose equality and order -/

namespace Comparison

open Json (Value Number)

variable {a b : Value}

/-- Two numbers, or two strings. -/
inductive Alike : Value → Value → Prop
  | numbers (m n : Number) : Alike (.number m) (.number n)
  | strings (s t : String) : Alike (.string s) (.string t)

/-- The operators that ask for an order. -/
def orders : List Comparison := [less, lessOrEqual, greater, greaterOrEqual]

theorem apply_of_mem_orders {op : Comparison} (h : op ∈ orders) : op.apply a b = op.order a b := by
  cases op with
  | less | lessOrEqual | greater | greaterOrEqual => rfl
  | equal | notEqual | contains => simp [orders] at h

/-- Numbers are compared by size and all else as it is written. -/
theorem looselyEqual_iff : looselyEqual a b = true ↔
    (∃ m n, a = .number m ∧ b = .number n ∧ (m.toFloat == n.toFloat) = true) ∨
      (∀ n, a ≠ .number n) ∧ (∀ n, b ≠ .number n) ∧ a.beq b = true := by
  have hvalue : ∀ v w : Value, (v == w) = v.beq w := fun _ _ => rfl
  cases a <;> cases b <;> simp [looselyEqual, Value.beq, hvalue]

/-- Two numbers and two strings have one order, which turns round with the sides. -/
theorem exists_order (h : Alike a b) (ha : a.IsDefinite) (hb : b.IsDefinite) :
    ∃ o : Ordering, (∀ op, order op a b = .ok (op.accepts o)) ∧
      (∀ op, order op b a = .ok (op.accepts o.swap)) ∧ looselyEqual a b = (o == .eq) := by
  cases h with
  | numbers m n =>
    have hm : m.IsDefinite := ha m (List.mem_singleton_self m)
    have hn : n.IsDefinite := hb n (List.mem_singleton_self n)
    obtain ⟨o, ho⟩ := exists_orderFloats? hm hn
    have hswap := orderFloats?_swap m.toFloat n.toFloat
    rw [ho] at hswap
    refine ⟨o, ?_, ?_, ?_⟩
    · intro op
      rw [order, ho]
      rfl
    · intro op
      rw [order, hswap]
      rfl
    · rw [looselyEqual, beq_eq_orderFloats?, ho]
      rfl
  | strings s t =>
    refine ⟨orderStrings s t, ?_, ?_, ?_⟩
    · intro op
      rfl
    · intro op
      rw [order, orderStrings_swap]
    · show (s == t) = (orderStrings s t == .eq)
      rw [Bool.eq_iff_iff, beq_iff_eq, beq_iff_eq, orderStrings_eq_iff]

theorem order_of_not_alike (h : ¬Alike a b) (op : Comparison) :
    order op a b = .error (.unordered a b) := by
  unfold order
  split
  · exact absurd (.numbers _ _) h
  · exact absurd (.strings _ _) h
  · rfl

theorem looselyEqual_refl (ha : a.IsDefinite) : looselyEqual a a = true := by
  by_cases hnumber : ∃ n, a = .number n
  · obtain ⟨n, hn⟩ := hnumber
    rw [hn] at ha ⊢
    exact float_beq_refl (ha n (List.mem_singleton_self n))
  · have hne : ∀ n, a ≠ .number n := fun n hn => hnumber ⟨n, hn⟩
    exact looselyEqual_iff.mpr (.inr ⟨hne, hne, Value.beq_refl ha⟩)

theorem looselyEqual_symm (h : looselyEqual a b = true) : looselyEqual b a = true := by
  rw [looselyEqual_iff] at h ⊢
  obtain ⟨m, n, ha, hb, hmn⟩ | ⟨ha, hb, hab⟩ := h
  · exact .inl ⟨n, m, hb, ha, BEq.symm hmn⟩
  · exact .inr ⟨hb, ha, Value.beq_symm hab⟩

theorem looselyEqual_trans {d : Value} (h : looselyEqual a b = true)
    (h' : looselyEqual b d = true) : looselyEqual a d = true := by
  rw [looselyEqual_iff] at h h' ⊢
  obtain ⟨m, n, ha, hb, hmn⟩ | ⟨ha, hb, hab⟩ := h
  · obtain ⟨n', k, hb', hd, hnk⟩ | ⟨hb', -, -⟩ := h'
    · have hn : n = n' := Value.number.inj (hb.symm.trans hb')
      rw [← hn] at hnk
      exact .inl ⟨m, k, ha, hd, BEq.trans hmn hnk⟩
    · exact absurd hb (hb' n)
  · obtain ⟨n', k, hb', -, -⟩ | ⟨-, hd, hbd⟩ := h'
    · exact absurd hb' (hb n')
    · exact .inr ⟨ha, hd, Value.beq_trans hab hbd⟩

end Comparison

namespace Predicate

open Json (Value Number)
open Comparison (Alike)

variable {c : Context} {l r : Predicate} {a b : Value}

theorem evaluate_compare (hl : l.evaluate c = .ok a) (hr : r.evaluate c = .ok b)
    (op : Comparison) : (compare op l r).evaluate c = (op.apply a b).map Value.bool := by
  rw [evaluate, hl, hr]

/-- What the order operators say about operands that stand in an order. -/
theorem evaluate_compare_of_order (hl : l.evaluate c = .ok a) (hr : r.evaluate c = .ok b)
    {o : Ordering} (ho : ∀ op, Comparison.order op a b = .ok (op.accepts o)) {op : Comparison}
    (hop : op ∈ Comparison.orders) :
    (compare op l r).evaluate c = .ok (.bool (op.accepts o)) := by
  rw [evaluate_compare hl hr, Comparison.apply_of_mem_orders hop, ho]
  rfl

theorem evaluate_compare_of_not_alike (hl : l.evaluate c = .ok a) (hr : r.evaluate c = .ok b)
    (h : ¬Alike a b) {op : Comparison} (hop : op ∈ Comparison.orders) :
    (compare op l r).evaluate c = .error (.unordered a b) := by
  rw [evaluate_compare hl hr, Comparison.apply_of_mem_orders hop, Comparison.order_of_not_alike h]
  rfl

theorem evaluate_equal (hl : l.evaluate c = .ok a) (hr : r.evaluate c = .ok b) :
    (compare .equal l r).evaluate c = .ok (.bool (Comparison.looselyEqual a b)) ∧
      (compare .notEqual l r).evaluate c = .ok (.bool !Comparison.looselyEqual a b) := by
  rw [evaluate_compare hl hr, evaluate_compare hl hr]
  exact ⟨rfl, rfl⟩

/-- Of two numbers or two strings exactly one of less, equal and greater holds, the other
comparisons follow from these, and the sides can be turned round. All other values have no order,
but they are equal or not. Equality is an equivalence. -/
theorem comparisons_agree (hl : l.evaluate c = .ok a) (hr : r.evaluate c = .ok b) :
    (Alike a b → a.IsDefinite → b.IsDefinite → ∃ less equal greater : Bool,
      [less, equal, greater].count true = 1 ∧
      (compare .less l r).evaluate c = .ok (.bool less) ∧
      (compare .equal l r).evaluate c = .ok (.bool equal) ∧
      (compare .greater l r).evaluate c = .ok (.bool greater) ∧
      (compare .lessOrEqual l r).evaluate c = .ok (.bool (less || equal)) ∧
      (compare .greaterOrEqual l r).evaluate c = .ok (.bool (greater || equal)) ∧
      (compare .notEqual l r).evaluate c = .ok (.bool !equal) ∧
      (compare .less r l).evaluate c = .ok (.bool greater) ∧
      (compare .greater r l).evaluate c = .ok (.bool less)) ∧
    (¬Alike a b →
      (∀ op ∈ Comparison.orders, (compare op l r).evaluate c = .error (.unordered a b)) ∧
      ∃ equal : Bool, (compare .equal l r).evaluate c = .ok (.bool equal) ∧
        (compare .notEqual l r).evaluate c = .ok (.bool !equal)) ∧
    Equivalence fun v w : {v : Value // v.IsDefinite} =>
      (compare .equal (.literal v) (.literal w)).evaluate c = .ok (.bool true) := by
  refine ⟨?_, ?_, ?_⟩
  · intro halike ha hb
    obtain ⟨o, ho, hswap, heq⟩ := Comparison.exists_order halike ha hb
    obtain ⟨hequal, hnot⟩ := evaluate_equal hl hr
    rw [heq] at hequal hnot
    have htold : ∀ op ∈ Comparison.orders,
        (compare op l r).evaluate c = .ok (.bool (op.accepts o)) := by
      intro op hop
      exact evaluate_compare_of_order hl hr ho hop
    have hturned : ∀ op ∈ Comparison.orders,
        (compare op r l).evaluate c = .ok (.bool (op.accepts o.swap)) := by
      intro op hop
      exact evaluate_compare_of_order hr hl hswap hop
    refine ⟨Comparison.less.accepts o, o == .eq, Comparison.greater.accepts o, ?_,
      htold _ (by decide), hequal, htold _ (by decide), ?_, ?_, hnot, ?_, ?_⟩
    · cases o <;> rfl
    · rw [htold _ (by decide)]
      cases o <;> rfl
    · rw [htold _ (by decide)]
      cases o <;> rfl
    · rw [hturned _ (by decide)]
      cases o <;> rfl
    · rw [hturned _ (by decide)]
      cases o <;> rfl
  · intro hnot
    exact ⟨fun op hop => evaluate_compare_of_not_alike hl hr hnot hop,
      Comparison.looselyEqual a b, evaluate_equal hl hr⟩
  · have hequal : ∀ v w : Value, (compare .equal (.literal v) (.literal w)).evaluate c =
        .ok (.bool true) ↔ Comparison.looselyEqual v w = true := by
      intro v w
      rw [(evaluate_equal (a := v) (b := w) rfl rfl).1]
      simp
    refine ⟨?_, ?_, ?_⟩
    · intro v
      exact (hequal v v).mpr (Comparison.looselyEqual_refl v.2)
    · intro v w h
      exact (hequal w v).mpr (Comparison.looselyEqual_symm ((hequal v w).mp h))
    · intro u v w h h'
      exact (hequal u w).mpr
        (Comparison.looselyEqual_trans ((hequal u v).mp h) ((hequal v w).mp h'))

/-- A whole number of years stands in an order with a bound that is a float, whichever side it is
on, and in none with a name. -/
theorem ages_comparisons_agree :
    let c := Context.start (.object [("age", .nat 17), ("name", .string "ada")]) "trace-1"
    let age : Predicate := .field ⟨"input", ["age"]⟩
    let name : Predicate := .field ⟨"input", ["name"]⟩
    let bound : Predicate := .literal (.float 17.5)
    Alike (.nat 17) (.float 17.5) ∧
    (compare .less age bound).evaluate c = .ok (.bool true) ∧
    (compare .lessOrEqual age bound).evaluate c = .ok (.bool true) ∧
    (compare .greater bound age).evaluate c = .ok (.bool true) ∧
    (compare .greater age name).evaluate c = .error (.unordered (.nat 17) (.string "ada")) ∧
    ∃ equal : Bool, (compare .equal age name).evaluate c = .ok (.bool equal) := by
  intro c age name bound
  have hage : age.evaluate c = .ok (.nat 17) := rfl
  have hname : name.evaluate c = .ok (.string "ada") := rfl
  have hbound : bound.evaluate c = .ok (.float 17.5) := rfl
  have halike : Alike (.nat 17) (.float 17.5) := .numbers _ _
  have hwhole : (Value.nat 17).IsStored := .number ⟨by decide, by decide⟩
  have hreal : (Value.float 17.5).IsStored := .number rfl
  obtain ⟨horder, -, -⟩ := comparisons_agree hage hbound
  obtain ⟨less, equal, greater, -, hless, -, -, hle, -, -, -, hturned⟩ :=
    horder halike hwhole.isDefinite hreal.isDefinite
  have hcomputed : (compare .less age bound).evaluate c = .ok (.bool true) := rfl
  have htrue : less = true := Value.bool.inj (Except.ok.inj (hless.symm.trans hcomputed))
  rw [htrue] at hle hturned
  obtain ⟨-, hunordered, -⟩ := comparisons_agree hage hname
  have hnot : ¬Alike (.nat 17) (.string "ada") := nofun
  obtain ⟨hfails, equal', hequal, -⟩ := hunordered hnot
  exact ⟨halike, hcomputed, hle, hturned, hfails .greater (by decide), equal', hequal⟩

end Predicate

end TriageFlow
