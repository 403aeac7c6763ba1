import Mathlib
import TriageFlow.Rule.Evaluation

/-!
The order of 64-bit floats. Two floats are compared by sign, place and mantissa, a zero without
its sign, so that the order is decided by one comparison (`Comparison.orderFloats?_eq`) and turns
round with its sides (`compare_swap`). Only a float that is no number has no order
(`compare_eq_none_iff`) and is not equal to itself.
-/

namespace TriageFlow

namespace Unpacked

open Float.Model (UnpackedFloat)

variable {x y : UnpackedFloat}

theorem compare_swap (x y : UnpackedFloat) : y.compare x = (x.compare y).map Ordering.swap := by
  rcases x with (_ | _) | _ | _ | ⟨_ | _, m, e, _⟩ <;>
    rcases y with (_ | _) | _ | _ | ⟨_ | _, n, f, _⟩ <;>
    simp [UnpackedFloat.compare, Ordering.swap_then, Int.compare_swap, Nat.compare_swap] <;> rfl

theorem compare_eq_none_iff : x.compare y = none ↔ x.isNaN = true ∨ y.isNaN = true := by
  rcases x with (_ | _) | _ | _ | ⟨_ | _, _, _, _⟩ <;>
    rcases y with (_ | _) | _ | _ | ⟨_ | _, _, _, _⟩ <;>
    simp [UnpackedFloat.compare, UnpackedFloat.isNaN]

theorem isNaN_of_isFinite (h : x.isFinite = true) : x.isNaN = false := by
  cases x with
  | notANumber => exact absurd h Bool.false_ne_true
  | infinity s => rfl
  | zero s => rfl
  | finite s m e hm => rfl

end Unpacked

namespace Comparison

variable {a b : Float}

theorem beq_iff_compare :
    (a == b) = true ↔ a.toModel.unpack.compare b.toModel.unpack = some .eq := by
  show (a.toModel.unpack.compare b.toModel.unpack == some .eq) = true ↔ _
  exact beq_iff_eq

theorem lt_iff_compare : a < b ↔ a.toModel.unpack.compare b.toModel.unpack = some .lt := by
  show decide (a.toModel < b.toModel) = true ↔ _
  rw [decide_eq_true_iff]
  exact beq_iff_eq

theorem orderFloats?_eq (a b : Float) :
    orderFloats? a b = a.toModel.unpack.compare b.toModel.unpack := by
  have hswap := Unpacked.compare_swap a.toModel.unpack b.toModel.unpack
  unfold orderFloats?
  simp only [lt_iff_compare, beq_iff_compare]
  rw [hswap]
  cases a.toModel.unpack.compare b.toModel.unpack with
  | none => rfl
  | some o => cases o <;> rfl

theorem orderFloats?_swap (a b : Float) :
    orderFloats? b a = (orderFloats? a b).map Ordering.swap := by
  rw [orderFloats?_eq, orderFloats?_eq]
  exact Unpacked.compare_swap _ _

/-- Two numbers have an order. -/
theorem exists_orderFloats? (ha : a.isNaN = false) (hb : b.isNaN = false) :
    ∃ o, orderFloats? a b = some o := by
  rw [orderFloats?_eq]
  apply Option.ne_none_iff_exists'.mp
  intro hnone
  obtain h | h := Unpacked.compare_eq_none_iff.mp hnone
  · exact Bool.false_ne_true (ha.symm.trans h)
  · exact Bool.false_ne_true (hb.symm.trans h)

theorem beq_eq_orderFloats? (a b : Float) : (a == b) = (orderFloats? a b == some .eq) := by
  rw [orderFloats?_eq, Bool.eq_iff_iff, beq_iff_compare, beq_iff_eq]

theorem float_beq_refl (h : a.isNaN = false) : (a == a) = true := by
  rw [Float.isNaN_eq_decide_eq_nan, decide_eq_false_iff_not] at h
  exact Float.beq_self_iff.mpr h

/-! ## Strings -/

theorem orderStrings_swap (s t : String) : orderStrings t s = (orderStrings s t).swap := by
  unfold orderStrings
  by_cases hlt : s < t
  · have hne : t ≠ s := by
      intro heq
      exact String.lt_irrefl s (heq ▸ hlt)
    rw [if_pos hlt, if_neg (String.lt_asymm hlt), if_neg hne]
    rfl
  · by_cases heq : s = t
    · rw [heq, if_neg (String.lt_irrefl t), if_pos rfl]
      rfl
    · have hgt : t < s := by
        apply String.not_le.mp
        intro hle
        exact heq (String.le_antisymm hle (String.not_lt.mp hlt))
      rw [if_neg hlt, if_neg heq, if_pos hgt]
      rfl

theorem orderStrings_eq_iff (s t : String) : orderStrings s t = .eq ↔ s = t := by
  unfold orderStrings
  by_cases hlt : s < t
  · have hne : s ≠ t := by
      intro heq
      exact String.lt_irrefl s (heq ▸ hlt)
    rw [if_pos hlt]
    simp [hne]
  · rw [if_neg hlt]
    by_cases heq : s = t <;> simp [heq]

end Comparison

end TriageFlow
