import TriageFlow.Proofs.FloatOrder

/-!
The order of 32-bit floats. A float has a place in a linear order (`Unpacked.place`): its side of
zero, then exponent and mantissa, turned round below zero. Two numbers compare as their places
(`Score.lt_iff`, `Score.beq_iff`), so that among numbers the order is total; a comparison with a
float that is no number fails (`Score.not_le_iff`).
-/

namespace TriageFlow

namespace Unpacked

open Float.Model (UnpackedFloat)

/-- A float's side of zero, its exponent and its mantissa. The signs of the zeros do not count. -/
def place : UnpackedFloat → ℤ ×ₗ ℤ ×ₗ ℤ
  | .infinity .positive => toLex (2, toLex (0, 0))
  | .finite .positive m e _ => toLex (1, toLex (e, m))
  | .zero _ => toLex (0, toLex (0, 0))
  | .finite .negative m e _ => toLex (-1, toLex (-e, -m))
  | .infinity .negative => toLex (-2, toLex (0, 0))
  | .notANumber => toLex (3, toLex (0, 0))

variable {x y : UnpackedFloat}

/-- The order of two numbers is the order of their places. -/
theorem compare_eq_lt_iff (hx : x.isNaN = false) (hy : y.isNaN = false) :
    x.compare y = some .lt ↔ place x < place y := by
  have hfinite {m n : Nat} {e f : Int} :
      ((compare e f).then (compare m n) = .lt ↔ e < f ∨ e = f ∧ m < n) ∧
      ((compare e f).then (compare m n) = .gt ↔ f < e ∨ e = f ∧ n < m) := by
    rw [Ordering.then_eq_lt, Ordering.then_eq_gt, Int.compare_eq_lt, Int.compare_eq_gt,
      Int.compare_eq_eq, Nat.compare_eq_lt, Nat.compare_eq_gt]
    exact ⟨Iff.rfl, Iff.rfl⟩
  rcases x with (_ | _) | _ | _ | ⟨_ | _, m, e, _⟩ <;>
    rcases y with (_ | _) | _ | _ | ⟨_ | _, n, f, _⟩ <;>
    simp_all [UnpackedFloat.compare, UnpackedFloat.isNaN, place, Prod.Lex.toLex_lt_toLex]
  decide

end Unpacked

namespace Score

variable {a b : Float32}

/-- The place of a score in the order. -/
def place (a : Float32) : ℤ ×ₗ ℤ ×ₗ ℤ := Unpacked.place a.toModel.unpack

theorem lt_iff_compare : a < b ↔ a.toModel.unpack.compare b.toModel.unpack = some .lt := by
  show decide (a.toModel < b.toModel) = true ↔ _
  rw [decide_eq_true_iff]
  exact beq_iff_eq

theorem le_iff_compare : a ≤ b ↔
    (a.toModel.unpack.compare b.toModel.unpack).any Ordering.isLE = true := by
  show decide (a.toModel ≤ b.toModel) = true ↔ _
  rw [decide_eq_true_iff]
  exact Iff.rfl

theorem beq_iff_compare :
    (a == b) = true ↔ a.toModel.unpack.compare b.toModel.unpack = some .eq := by
  show (a.toModel.unpack.compare b.toModel.unpack == some .eq) = true ↔ _
  exact beq_iff_eq

/-- Scores are compared unless one of them is no number. -/
theorem compare_eq_none_iff :
    a.toModel.unpack.compare b.toModel.unpack = none ↔ a.isNaN = true ∨ b.isNaN = true :=
  Unpacked.compare_eq_none_iff

/-- A score that is not at most another one is above it, or one of them is no number. -/
theorem not_le_iff : ¬a ≤ b ↔ b < a ∨ a.isNaN = true ∨ b.isNaN = true := by
  rw [le_iff_compare, lt_iff_compare, ← compare_eq_none_iff,
    Unpacked.compare_swap a.toModel.unpack b.toModel.unpack]
  cases a.toModel.unpack.compare b.toModel.unpack with
  | none => simp
  | some o => cases o <;> simp

theorem not_lt_of_isNaN (h : a.isNaN = true ∨ b.isNaN = true) : ¬a < b := by
  rw [lt_iff_compare, compare_eq_none_iff.mpr h]
  exact nofun

theorem lt_asymm (h : a < b) : ¬b < a := by
  rw [lt_iff_compare] at h
  rw [lt_iff_compare, Unpacked.compare_swap a.toModel.unpack, h]
  exact nofun

theorem not_lt_of_beq (h : (a == b) = true) : ¬a < b := by
  rw [beq_iff_compare] at h
  rw [lt_iff_compare, h]
  exact nofun

/-- Of two numbers the one with the smaller place is smaller. -/
theorem lt_iff (ha : a.isNaN = false) (hb : b.isNaN = false) : a < b ↔ place a < place b :=
  lt_iff_compare.trans (Unpacked.compare_eq_lt_iff ha hb)

/-- Two numbers with the same place are equal. -/
theorem beq_iff (ha : a.isNaN = false) (hb : b.isNaN = false) :
    (a == b) = true ↔ place a = place b := by
  have hlt := lt_iff_compare.symm.trans (lt_iff ha hb)
  have hgt := lt_iff_compare.symm.trans (lt_iff hb ha)
  have hnone : a.toModel.unpack.compare b.toModel.unpack ≠ none := by
    rw [Ne, compare_eq_none_iff, ha, hb]
    simp
  have hplaces : place a = place b ↔ ¬place a < place b ∧ ¬place b < place a := by
    rw [not_lt, not_lt, and_comm, le_antisymm_iff]
  rw [beq_iff_compare, hplaces, ← hlt, ← hgt,
    Unpacked.compare_swap a.toModel.unpack b.toModel.unpack]
  cases h : a.toModel.unpack.compare b.toModel.unpack with
  | none => exact absurd h hnone
  | some o => cases o <;> simp

end Score

end TriageFlow
