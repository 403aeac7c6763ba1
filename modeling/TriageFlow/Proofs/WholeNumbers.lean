import TriageFlow.Proofs.Comparing

/-!
Whole numbers in comparisons. They are compared as floats, so that what counts is the nearest
number with room (`Comparison.orderFloats?_whole`): neighbours of seventeen digits can be equal,
but the order is never turned round, and an integer below `2 ^ 53` is told from every other.
-/

namespace TriageFlow

open Json (Value Number)
open Decimal (nearestInt)

namespace Comparison

section Whole

variable {m n : Int} (hm : (Number.whole m).IsStored) (hn : (Number.whole n).IsStored)

include hm hn

/-- Stored whole numbers are in the order of what they are rounded to. -/
theorem orderFloats?_whole : orderFloats? (Number.whole m).toFloat (Number.whole n).toFloat =
    some (compare (nearestInt m) (nearestInt n)) := by
  rw [orderFloats?_eq]
  exact (Number.standsFor_of_isStored hm).compare_eq (Number.standsFor_of_isStored hn)

theorem looselyEqual_whole : looselyEqual (.number (.whole m)) (.number (.whole n)) =
    (compare (nearestInt m) (nearestInt n) == .eq) := by
  rw [looselyEqual, beq_eq_orderFloats?, orderFloats?_whole hm hn]
  rfl

theorem order_whole (op : Comparison) : order op (.number (.whole m)) (.number (.whole n)) =
    .ok (op.accepts (compare (nearestInt m) (nearestInt n))) := by
  rw [order, orderFloats?_whole hm hn]
  rfl

end Whole

theorem looselyEqual_number_iff {v : Value} {n : Number} :
    looselyEqual v (.number n) = true ↔
      ∃ m, v = .number m ∧ (m.toFloat == n.toFloat) = true := by
  rw [looselyEqual_iff]
  constructor
  · intro h
    obtain ⟨m, n', hv, hn, hmn⟩ | ⟨-, hne, -⟩ := h
    · rw [Value.number.inj hn]
      exact ⟨m, hv, hmn⟩
    · exact absurd rfl (hne n)
  · intro ⟨m, hv, hmn⟩
    exact .inl ⟨m, n, hv, rfl, hmn⟩

/-- What an array must hold to contain a whole number. -/
theorem any_looselyEqual_whole_iff {items : List Value} {n : Int}
    (hitems : ∀ v ∈ items, v.IsStored) (hn : (Number.whole n).IsStored) :
    (items.any fun item => looselyEqual item (.number (.whole n))) = true ↔
      (∃ k, .number (.whole k) ∈ items ∧ nearestInt k = nearestInt n) ∨
      ∃ x, .number (.real x) ∈ items ∧ (x == (Number.whole n).toFloat) = true := by
  rw [List.any_eq_true]
  constructor
  · intro ⟨v, hv, hequal⟩
    obtain ⟨m, hm, hmn⟩ := looselyEqual_number_iff.mp hequal
    rw [hm] at hv hequal
    cases m with
    | whole k =>
      cases hitems _ hv with
      | number hk =>
        rw [looselyEqual_whole hk hn, beq_iff_eq, Int.compare_eq_eq] at hequal
        exact .inl ⟨k, hv, hequal⟩
    | real x => exact .inr ⟨x, hv, hmn⟩
  · intro h
    obtain ⟨k, hk, hkn⟩ | ⟨x, hx, hxn⟩ := h
    · cases hitems _ hk with
      | number hstored =>
        refine ⟨_, hk, ?_⟩
        rw [looselyEqual_whole hstored hn, beq_iff_eq, Int.compare_eq_eq]
        exact hkn
    · exact ⟨_, hx, looselyEqual_number_iff.mpr ⟨_, rfl, hxn⟩⟩

end Comparison

namespace Predicate

section Compare

variable {c : Context} {l r : Predicate} {m n : Int}
  (hl : l.evaluate c = .ok (.number (.whole m))) (hr : r.evaluate c = .ok (.number (.whole n)))
  (hm : (Number.whole m).IsStored) (hn : (Number.whole n).IsStored)

include hl hr hm hn

/-- What comparisons of two whole numbers say, whose order after rounding is that of `a` and
`b`. -/
theorem evaluate_compare_whole {a b : Int}
    (hab : Ord.compare (nearestInt m) (nearestInt n) = Ord.compare a b) :
    (compare .equal l r).evaluate c = .ok (.bool (decide (a = b))) ∧
    (compare .less l r).evaluate c = .ok (.bool (decide (a < b))) ∧
    (compare .greater l r).evaluate c = .ok (.bool (decide (b < a))) := by
  have horder := Comparison.order_whole hm hn
  have hequal := Comparison.looselyEqual_whole hm hn
  rw [hab] at horder hequal
  refine ⟨?_, ?_, ?_⟩
  · have hdecide : (Ord.compare a b == .eq) = decide (a = b) := by
      rw [Bool.eq_iff_iff, beq_iff_eq, Int.compare_eq_eq, decide_eq_true_iff]
    rw [(evaluate_equal hl hr).1, hequal, hdecide]
  · have hdecide : Comparison.less.accepts (Ord.compare a b) = decide (a < b) := by
      rw [Comparison.accepts, Bool.eq_iff_iff, beq_iff_eq, Int.compare_eq_lt, decide_eq_true_iff]
    rw [evaluate_compare_of_order hl hr horder (by decide), hdecide]
  · have hdecide : Comparison.greater.accepts (Ord.compare a b) = decide (b < a) := by
      rw [Comparison.accepts, Bool.eq_iff_iff, beq_iff_eq, Int.compare_eq_gt, decide_eq_true_iff]
    rw [evaluate_compare_of_order hl hr horder (by decide), hdecide]

end Compare

theorem evaluate_contains_array {c : Context} {l r : Predicate} {items : List Value} {v : Value}
    (hl : l.evaluate c = .ok (.array items)) (hr : r.evaluate c = .ok v) :
    (compare .contains l r).evaluate c =
      .ok (.bool (items.any fun item => Comparison.looselyEqual item v)) := by
  rw [evaluate_compare hl hr]
  rfl

/-- Whole numbers are compared as the nearest numbers that a float has room for, which never turns
their order round and takes no two for equal that are more than `2 ^ 11` apart. The comparison is
exact if one of the two is below `2 ^ 53`. An array contains a number if it holds one of the same
float. -/
theorem whole_numbers_compare_rounded {c : Context} {l r : Predicate} {m n : Int}
    (hl : l.evaluate c = .ok (.number (.whole m))) (hr : r.evaluate c = .ok (.number (.whole n)))
    (hm : (Number.whole m).IsStored) (hn : (Number.whole n).IsStored) :
    (compare .equal l r).evaluate c = .ok (.bool (decide (nearestInt m = nearestInt n))) ∧
    (compare .less l r).evaluate c = .ok (.bool (decide (nearestInt m < nearestInt n))) ∧
    (compare .greater l r).evaluate c = .ok (.bool (decide (nearestInt n < nearestInt m))) ∧
    (∀ z, Decimal.HasRoom (nearestInt z) ∧
      ∀ w, Decimal.HasRoom w → (nearestInt z - z).natAbs ≤ (w - z).natAbs) ∧
    (m ≤ n → nearestInt m ≤ nearestInt n) ∧
    (nearestInt m = nearestInt n → (m - n).natAbs ≤ 2 ^ 11) ∧
    (m.natAbs < 2 ^ 53 ∨ n.natAbs < 2 ^ 53 →
      (compare .equal l r).evaluate c = .ok (.bool (decide (m = n))) ∧
      (compare .less l r).evaluate c = .ok (.bool (decide (m < n))) ∧
      (compare .greater l r).evaluate c = .ok (.bool (decide (n < m)))) ∧
    ∀ (a : Predicate) (items : List Value), a.evaluate c = .ok (.array items) →
      (∀ v ∈ items, v.IsStored) → ∃ found : Bool,
        (compare .contains a r).evaluate c = .ok (.bool found) ∧
        (found = true ↔ (∃ k, .number (.whole k) ∈ items ∧ nearestInt k = nearestInt n) ∨
          ∃ x, .number (.real x) ∈ items ∧ (x == (Number.whole n).toFloat) = true) ∧
        (n.natAbs < 2 ^ 53 → (∀ x, .number (.real x) ∉ items) →
          (found = true ↔ .number (.whole n) ∈ items)) := by
  obtain ⟨hequal, hless, hgreater⟩ := evaluate_compare_whole hl hr hm hn rfl
  refine ⟨hequal, hless, hgreater,
    fun z => ⟨Decimal.hasRoom_nearestInt z, fun _ hw => Decimal.nearestInt_error_le hw z⟩,
    Decimal.nearestInt_mono,
    Decimal.sub_le_of_nearestInt_eq (Number.natAbs_lt_of_isStored hm)
      (Number.natAbs_lt_of_isStored hn), ?_, ?_⟩
  · intro hsmall
    exact evaluate_compare_whole hl hr hm hn (Decimal.compare_nearestInt hsmall)
  · intro a items ha hitems
    have hfound := Comparison.any_looselyEqual_whole_iff hitems hn
    refine ⟨_, evaluate_contains_array ha hr, hfound, ?_⟩
    intro hsmall hwhole
    rw [hfound]
    constructor
    · intro h
      obtain ⟨k, hk, hkn⟩ | ⟨x, hx, -⟩ := h
      · rw [← (Decimal.nearestInt_eq_iff (.inr hsmall)).mp hkn]
        exact hk
      · exact absurd hx (hwhole x)
    · intro hmem
      exact .inl ⟨n, hmem, rfl⟩

/-- Two counters next to each other of which neither is below the other. -/
theorem neighbouring_counters_are_equal :
    let c := Context.start (.object [("a", .nat (2 ^ 53 + 1)), ("b", .nat (2 ^ 53))]) "trace-1"
    let a : Predicate := .field ⟨"input", ["a"]⟩
    let b : Predicate := .field ⟨"input", ["b"]⟩
    a.evaluate c = .ok (.nat (2 ^ 53 + 1)) ∧ b.evaluate c = .ok (.nat (2 ^ 53)) ∧
    (2 ^ 53 : Int) < 2 ^ 53 + 1 ∧
    (compare .equal a b).evaluate c = .ok (.bool true) ∧
    (compare .less b a).evaluate c = .ok (.bool false) := by
  intro c a b
  exact ⟨rfl, rfl, by decide, rfl, rfl⟩

/-- A phone number is told from the greatest number of 64 bits, and found among others. -/
theorem phone_numbers_compare_rounded :
    let known : List Value := [.nat 33612345677, .nat 33612345678]
    let c := Context.start (.object [("caller", .nat 33612345678), ("known", .array known),
      ("limit", .nat 18446744073709551615)]) "trace-1"
    let caller : Predicate := .field ⟨"input", ["caller"]⟩
    let limit : Predicate := .field ⟨"input", ["limit"]⟩
    (Number.whole 33612345678).IsStored ∧ (Number.whole 18446744073709551615).IsStored ∧
    (compare .equal limit caller).evaluate c = .ok (.bool false) ∧
    (compare .greater limit caller).evaluate c = .ok (.bool true) ∧
    (compare .contains (.field ⟨"input", ["known"]⟩) caller).evaluate c = .ok (.bool true) := by
  intro known c caller limit
  have hcaller : (Number.whole 33612345678).IsStored := ⟨by decide, by decide⟩
  have hlimit : (Number.whole 18446744073709551615).IsStored := ⟨by decide, by decide⟩
  have hitems : ∀ v ∈ known, v.IsStored := by
    have hother : (Number.whole 33612345677).IsStored := ⟨by decide, by decide⟩
    exact List.forall_mem_cons.mpr ⟨.number hother, List.forall_mem_singleton.mpr (.number hcaller)⟩
  have hwhole : ∀ x, .number (.real x) ∉ known := by
    intro x hx
    simp [known, Value.nat] at hx
  obtain ⟨-, -, -, -, -, -, hexact, hcontains⟩ :=
    whole_numbers_compare_rounded (c := c) (l := limit) (r := caller) rfl rfl hlimit hcaller
  obtain ⟨hequal, -, hgreater⟩ := hexact (.inr (by decide))
  obtain ⟨found, hfound, -, hmem⟩ := hcontains (.field ⟨"input", ["known"]⟩) known rfl hitems
  have htrue : found = true := (hmem (by decide) hwhole).mpr (.tail _ (.head _))
  rw [htrue] at hfound
  exact ⟨hcaller, hlimit, hequal, hgreater, hfound⟩

end Predicate

end TriageFlow
