import Mathlib
import TriageFlow.Proofs.Nearest

/-!
The 64-bit float of a whole number stands for the nearest number with room
(`Decimal.standsFor_ofInt`), and floats that stand for whole numbers are in the order of these
(`StandsFor.compare_eq`). To round a float shifts its mantissa until its first digit is in its
place, with a carry if it is rounded up to the next power of two; what was shifted out is a
remainder of a division (`roundedMantissa_shiftRight`).
-/

namespace TriageFlow.Decimal

open Float.Model (Format UnpackedFloat)
open Float.Model.UnpackedFloat

variable {n m k j : Nat}

/-! ## Rounding a mantissa -/

/-- A quotient, with what is left over of a division by `d`. -/
def divided (quotient rest d : Nat) : ExtendedMantissa :=
  ⟨quotient, decide (d ≤ 2 * rest), decide (0 < rest ∧ 2 * rest ≠ d)⟩

variable {quotient rest d : Nat}

theorem shiftRightOne_divided (h : rest < d) :
    (divided quotient rest d).shiftRightOne =
      divided (quotient / 2) (rest + d * (quotient % 2)) (2 * d) := by
  unfold divided ExtendedMantissa.shiftRightOne
  congr 1
  · rcases Nat.mod_two_eq_zero_or_one quotient with hbit | hbit
    · rw [hbit, Bool.eq_iff_iff]
      simp
      omega
    · rw [hbit, Bool.eq_iff_iff]
      simp
  · rcases Nat.mod_two_eq_zero_or_one quotient with hbit | hbit
    · rw [hbit, Bool.eq_iff_iff]
      simp
      omega
    · rw [hbit, Bool.eq_iff_iff]
      simp
      omega

theorem roundedMantissa_divided (h : rest < d) :
    (divided quotient rest d).roundedMantissa =
      if 2 * rest < d ∨ (2 * rest = d ∧ quotient % 2 = 0) then quotient else quotient + 1 := by
  rcases Nat.lt_trichotomy (2 * rest) d with hlt | heq | hgt
  · have hround : decide (d ≤ 2 * rest) = false := decide_eq_false (by omega)
    rw [if_pos (.inl hlt), divided, hround]
    cases decide (0 < rest ∧ 2 * rest ≠ d) <;> rfl
  · have hround : decide (d ≤ 2 * rest) = true := decide_eq_true (by omega)
    have hsticky : decide (0 < rest ∧ 2 * rest ≠ d) = false := decide_eq_false (by omega)
    rw [divided, hround, hsticky]
    show quotient + quotient % 2 = _
    split <;> omega
  · have hround : decide (d ≤ 2 * rest) = true := decide_eq_true (by omega)
    have hsticky : decide (0 < rest ∧ 2 * rest ≠ d) = true := decide_eq_true (by omega)
    rw [if_neg (by omega), divided, hround, hsticky]
    rfl

theorem shiftRight_eq (m k : Nat) : ExtendedMantissa.ofMantissaAndAccuracy m .exact >>> k =
    divided (m / 2 ^ k) (m % 2 ^ k) (2 ^ k) := by
  induction k with
  | zero =>
    have hone : m % 2 ^ 0 = 0 := Nat.mod_one m
    rw [hone, Nat.pow_zero, Nat.div_one]
    rfl
  | succ k ih =>
    have hstep : ExtendedMantissa.ofMantissaAndAccuracy m .exact >>> (k + 1) =
        (ExtendedMantissa.ofMantissaAndAccuracy m .exact >>> k).shiftRightOne := rfl
    rw [hstep, ih, shiftRightOne_divided (Nat.mod_lt m (Nat.two_pow_pos k)),
      Nat.div_div_eq_div_mul, ← Nat.pow_succ, ← Nat.mod_pow_succ, ← Nat.pow_succ']

/-- Shifting a mantissa and rounding it divides by a power of two, to the nearest. -/
theorem roundedMantissa_shiftRight (m k : Nat) :
    (ExtendedMantissa.ofMantissaAndAccuracy m .exact >>> k).roundedMantissa = halfEven m k := by
  rw [shiftRight_eq, roundedMantissa_divided (Nat.mod_lt m (Nat.two_pow_pos k)), halfEven]

/-! ## Normal floats -/

theorem targetExponent_eq {t : Int} (h : -1021 ≤ t) :
    Format.binary64.targetExponent t = t - 53 := by
  show max (t - (53 : Nat)) (3 - 2 ^ 10 - (53 : Nat)) = t - 53
  omega

theorem log2_mul_two_pow (h : n ≠ 0) (j : Nat) : (n * 2 ^ j).log2 = n.log2 + j := by
  have hpos : n * 2 ^ j ≠ 0 := Nat.mul_ne_zero h (Nat.two_pow_pos j).ne'
  refine (Nat.log2_eq_iff hpos).mpr ⟨?_, ?_⟩
  · rw [Nat.pow_add]
    exact Nat.mul_le_mul_right _ (Nat.log2_self_le h)
  · rw [Nat.add_right_comm, Nat.pow_add]
    exact Nat.mul_lt_mul_of_pos_right Nat.lt_log2_self (Nat.two_pow_pos j)

/-- Mantissas are shifted until their first digit is in its place. -/
theorem shiftToTargetExponent_eq {e : Int} (hnormal : -1022 ≤ m.log2 + e)
    (hshift : m.log2 = 52 + k ∨ (m.log2 ≤ 52 ∧ k = 0)) :
    shiftToTargetExponent .binary64 m e .exact =
      (ExtendedMantissa.ofMantissaAndAccuracy m .exact >>> k, e + k) := by
  have htotal : Float.Model.totalExponent m e = m.log2 + 1 + e := rfl
  have hamount :
      (Format.binary64.targetExponent (Float.Model.totalExponent m e) - e).toNat = k := by
    rw [targetExponent_eq (by omega)]
    omega
  unfold shiftToTargetExponent shiftToExponent
  simp only [hamount]

/-- A normal float that stands for a whole number, or a zero. -/
inductive StandsFor : UnpackedFloat → Int → Prop
  | zero {s} : StandsFor (.zero s) 0
  | finite {s m hm} {e : Int} {k z : Nat} (exponent : e = k - 52) (small : k ≤ 1023)
    (low : 2 ^ 52 ≤ m) (high : m < 2 ^ 53) (value : m * 2 ^ k = z * 2 ^ 52) :
    StandsFor (.finite s m e hm) (s.apply z)

theorem StandsFor.isNaN {x : UnpackedFloat} {z : Int} (h : StandsFor x z) : x.isNaN = false := by
  cases h <;> rfl

/-- What the mantissa of a number is rounded to, at the place of its first digit. -/
theorem halfEven_scaled (h : 52 ≤ n.log2 + j) :
    halfEven (n * 2 ^ j) (n.log2 + j - 52) * 2 ^ n.log2 = nearest n * 2 ^ 52 := by
  rcases Nat.le_total 52 n.log2 with hlong | hshort
  · have hsurplus : n.log2 = surplus n + 52 := by
      unfold surplus
      omega
    have hshift : n.log2 + j - 52 = surplus n + j := by omega
    rw [hshift, halfEven_mul, nearest, Nat.mul_assoc, ← Nat.pow_add, ← hsurplus]
  · have hsplit : j = (52 - n.log2) + (n.log2 + j - 52) := by omega
    have hexact : halfEven (n * 2 ^ j) (n.log2 + j - 52) = n * 2 ^ (52 - n.log2) := by
      calc halfEven (n * 2 ^ j) (n.log2 + j - 52)
          = halfEven (n * 2 ^ (52 - n.log2) * 2 ^ (n.log2 + j - 52))
              (0 + (n.log2 + j - 52)) := by
            rw [Nat.mul_assoc, ← Nat.pow_add, ← hsplit, Nat.zero_add]
        _ = n * 2 ^ (52 - n.log2) := by rw [halfEven_mul, halfEven_zero]
    have hplace : 52 - n.log2 + n.log2 = 52 := by omega
    rw [hexact, nearest_of_short hshort, Nat.mul_assoc, ← Nat.pow_add, hplace]

section Settling

variable {e f : Int} {em : ExtendedMantissa} {r : Nat} (s : Sign)
  (hfirst : shiftToTargetExponent .binary64 m e .exact = (em, f)) (hplace : -1074 ≤ f)

include hfirst hplace

theorem roundWithAccuracy_of_lt (hr : em.roundedMantissa = r) (hlow : 2 ^ 52 ≤ r)
    (hhigh : r < 2 ^ 53) :
    roundWithAccuracy .binary64 s m e .exact =
      .finite s r f (Nat.lt_of_lt_of_le (by decide) hlow) := by
  have hlog : r.log2 = 52 := (Nat.log2_eq_iff (by omega)).mpr ⟨hlow, hhigh⟩
  have hsecond := shiftToTargetExponent_eq (m := r) (e := f) (k := 0) (by omega)
    (.inr ⟨by omega, rfl⟩)
  have hmantissa : (ExtendedMantissa.ofMantissaAndAccuracy r .exact >>> 0).mantissa = r := rfl
  have hne : r ≠ 0 := by omega
  unfold roundWithAccuracy
  simp only [hfirst, hr, hsecond, hmantissa, hne, dif_neg, not_false_eq_true]
  congr 1
  omega

theorem roundWithAccuracy_of_carry (hr : em.roundedMantissa = 2 ^ 53) :
    roundWithAccuracy .binary64 s m e .exact =
      .finite s (2 ^ 52) (f + 1) (by decide) := by
  have hsecond := shiftToTargetExponent_eq (m := 2 ^ 53) (e := f) (k := 1)
    (by rw [Nat.log2_two_pow]; omega) (.inl Nat.log2_two_pow)
  have hmantissa :
      (ExtendedMantissa.ofMantissaAndAccuracy (2 ^ 53) .exact >>> 1).mantissa = 2 ^ 52 := by
    decide
  unfold roundWithAccuracy
  simp only [hfirst, hr, hsecond, hmantissa]
  rfl

end Settling

theorem standsFor_round (s : Sign) (hn : n ≠ 0) (hsmall : n.log2 ≤ 1022) (hj : 52 ≤ n.log2 + j) :
    StandsFor (roundWithAccuracy .binary64 s (n * 2 ^ j) (-j) .exact) (s.apply (nearest n)) := by
  have hlog : (n * 2 ^ j).log2 = n.log2 + j := log2_mul_two_pow hn j
  have hvalue := halfEven_scaled hj
  have hfirst := shiftToTargetExponent_eq (m := n * 2 ^ j) (e := -j)
    (k := n.log2 + j - 52) (by omega) (.inl (by omega))
  have hplace : -(j : Int) + (n.log2 + j - 52 : Nat) = n.log2 - 52 := by omega
  have hpos : n * 2 ^ j ≠ 0 := Nat.mul_ne_zero hn (Nat.two_pow_pos j).ne'
  have hlow : 2 ^ 52 ≤ n * 2 ^ j / 2 ^ (n.log2 + j - 52) := by
    rw [Nat.le_div_iff_mul_le (Nat.two_pow_pos _), ← Nat.pow_add]
    have hle := Nat.log2_self_le hpos
    rwa [hlog, show n.log2 + j = 52 + (n.log2 + j - 52) by omega] at hle
  have hhigh : n * 2 ^ j / 2 ^ (n.log2 + j - 52) < 2 ^ 53 := by
    rw [Nat.div_lt_iff_lt_mul (Nat.two_pow_pos _), ← Nat.pow_add]
    have hlt : n * 2 ^ j < 2 ^ ((n * 2 ^ j).log2 + 1) := Nat.lt_log2_self
    rwa [hlog, show n.log2 + j + 1 = 53 + (n.log2 + j - 52) by omega] at hlt
  have hbounds := halfEven_bounds (n * 2 ^ j) (n.log2 + j - 52)
  rw [hplace] at hfirst
  have hr := roundedMantissa_shiftRight (n * 2 ^ j) (n.log2 + j - 52)
  by_cases hcarry : halfEven (n * 2 ^ j) (n.log2 + j - 52) < 2 ^ 53
  · rw [roundWithAccuracy_of_lt s hfirst (by omega) hr (by omega) hcarry]
    exact .finite rfl (by omega) (by omega) hcarry hvalue
  · have hfull : halfEven (n * 2 ^ j) (n.log2 + j - 52) = 2 ^ 53 := by omega
    rw [roundWithAccuracy_of_carry s hfirst (by omega) (hr.trans hfull)]
    refine .finite (k := n.log2 + 1) (by omega) (by omega) (Nat.le_refl _) (by decide) ?_
    rw [← hvalue, hfull, ← Nat.pow_add, ← Nat.pow_add]
    congr 1
    omega

/-! ## Packing -/

theorem toNat_one_append {w : Nat} (v : BitVec w) : (1#1 ++ v).toNat = 2 ^ w + v.toNat := by
  rw [BitVec.toNat_append, ← Nat.shiftLeft_add_eq_or_of_lt v.isLt, Nat.shiftLeft_eq]
  simp

theorem unpack_pack_finite {e : Int} {hm} (s : Sign) (hlow : 2 ^ 52 ≤ m) (hhigh : m < 2 ^ 53)
    (hleast : -1074 ≤ e) (hmost : e ≤ 971) :
    unpack .binary64 (pack .binary64 (.finite s m e hm)) = .finite s m e hm := by
  have hlog : m.log2 = 52 := (Nat.log2_eq_iff (by omega)).mpr ⟨hlow, hhigh⟩
  have hbiased : (e + (1023 : Nat) + (52 : Nat)).toNat = (e + 1075).toNat := by omega
  have hpack : pack .binary64 (.finite s m e hm) =
      packComponents .binary64 s (BitVec.ofNat 11 (e + 1075).toNat) (BitVec.ofNat 52 m) := by
    show (if 2 ^ 11 ≤ (e + (1023 : Nat) + (52 : Nat)).toNat + 1 then _
      else if m.log2 + 1 = 53 then _ else _) = _
    rw [if_neg (by omega), if_pos (by omega), ← hbiased]
    rfl
  have hexponent : (BitVec.ofNat 11 (e + 1075).toNat).toNat = (e + 1075).toNat :=
    Nat.mod_eq_of_lt (by omega)
  have hmantissa : (1#1 ++ BitVec.ofNat 52 m).toNat = m := by
    have hmod : (BitVec.ofNat 52 m).toNat = m % 2 ^ 52 := BitVec.toNat_ofNat ..
    rw [toNat_one_append, hmod]
    omega
  have hordinary : BitVec.ofNat 11 (e + 1075).toNat ≠ -1#11 := by
    intro h
    have htop : (e + 1075).toNat = 2047 := hexponent.symm.trans (congrArg BitVec.toNat h)
    omega
  have hnormal : BitVec.ofNat 11 (e + 1075).toNat ≠ 0#11 := by
    intro h
    have hzero : (e + 1075).toNat = 0 := hexponent.symm.trans (congrArg BitVec.toNat h)
    omega
  rw [hpack]
  unfold unpack
  simp only [unpackMantissa_packComponents, unpackExponent_packComponents,
    unpackSign_packComponents, Sign.ofBitVec_toBitVec, if_neg hordinary, if_neg hnormal, hmantissa,
    hexponent]
  congr 1
  show ((e + 1075).toNat : Int) - ((1023 : Nat) + (52 : Nat)) = e
  omega

theorem StandsFor.unpack_pack {x : UnpackedFloat} {z : Int} (h : StandsFor x z) :
    unpack .binary64 (pack .binary64 x) = x := by
  cases h with
  | @zero s => cases s <;> rfl
  | finite hexponent hsmall hlow hhigh _ =>
    exact unpack_pack_finite _ hlow hhigh (by omega) (by omega)

/-! ## The float of a whole number -/

theorem standsFor_pack {x : UnpackedFloat} {z : Int} (h : StandsFor x z) :
    StandsFor (Float.ofModel (.pack x)).toModel.unpack z := by
  have hpack : (Float.ofModel (.pack x)).toModel.unpack = unpack .binary64 (pack .binary64 x) := rfl
  rw [hpack, h.unpack_pack]
  exact h

/-- The unpacked one. -/
def one : UnpackedFloat := .finite .positive (2 ^ 52) (-52) (by decide)

theorem unpack_first_power : Float.exactlyRepresentablePowersOfTen[0].toModel.unpack = one := rfl

theorem apply_mul_positive (s : Sign) : s * .positive = s := by
  cases s <;> rfl

theorem StandsFor.mul_one {x : UnpackedFloat} {z : Int} (h : StandsFor x z) :
    mul .binary64 x one = x := by
  cases h with
  | @zero s => exact congrArg _ (apply_mul_positive s)
  | @finite s m hm e k z hexponent hsmall hlow hhigh hvalue =>
    have hlog : (m * 2 ^ 52).log2 = 104 := by
      rw [log2_mul_two_pow (by omega), (Nat.log2_eq_iff (by omega)).mpr ⟨hlow, hhigh⟩]
    have hfirst := shiftToTargetExponent_eq (m := m * 2 ^ 52) (e := e + -52) (k := 52)
      (by omega) (.inl hlog)
    have hexact : halfEven (m * 2 ^ 52) 52 = m := by
      rw [← Nat.zero_add 52, halfEven_mul, halfEven_zero]
    have hrounded := (roundedMantissa_shiftRight (m * 2 ^ 52) 52).trans hexact
    show roundWithAccuracy .binary64 (s * .positive) (m * 2 ^ 52) (e + -52) .exact = _
    rw [apply_mul_positive, roundWithAccuracy_of_lt s hfirst (by omega) hrounded hlow hhigh]
    congr 1
    omega

theorem standsFor_ofNat (hsmall : n.log2 ≤ 1022) :
    StandsFor (UnpackedFloat.ofNat .binary64 n) (nearest n) := by
  by_cases hn : n = 0
  · rw [hn]
    exact .zero
  have hpos : compare (n : Int) 0 = .gt := Int.compare_eq_gt.mpr (by omega)
  have hround := standsFor_round .positive hn hsmall (j := 52 - n.log2) (by omega)
  have hshift : (-Format.binary64.targetExponent (Float.Model.totalExponent n 0)).toNat =
      52 - n.log2 := by
    have htotal : Float.Model.totalExponent n 0 = n.log2 + 1 + 0 := rfl
    rw [targetExponent_eq (by omega)]
    omega
  have hofNat : UnpackedFloat.ofNat .binary64 n = roundWithAccuracy .binary64 .positive
      (n * 2 ^ (52 - n.log2)) (-(52 - n.log2 : Nat)) .exact := by
    show UnpackedFloat.normalize .binary64 (n : Int) 0 .positive = _
    unfold UnpackedFloat.normalize
    rw [hpos]
    show UnpackedFloat.round .binary64 .positive n 0 = _
    unfold UnpackedFloat.round decreaseExponent
    simp only [Nat.shiftLeft_eq, Int.zero_sub, hshift]
  rw [hofNat]
  exact hround

theorem standsFor_ofNat_short (h : n < 2 ^ 53) :
    StandsFor (Float.ofNat n).toModel.unpack (nearest n) := by
  have hlog : n.log2 ≤ 1022 := by
    by_cases hn : n = 0
    · rw [hn]
      decide
    · have hlt := (Nat.log2_lt hn).mpr h
      omega
  have hword : n.toUInt64.toNat = n := Nat.mod_eq_of_lt (by omega)
  have hofNat := standsFor_ofNat hlog
  have hproduct : Float.ofNat n =
      .ofModel (.pack (mul .binary64 (UnpackedFloat.ofNat .binary64 n) one)) := by
    show Float.ofScientific n false 0 = _
    unfold Float.ofScientific
    rw [dif_pos ⟨h, by decide⟩]
    show Float.ofModel (.pack (mul .binary64 n.toUInt64.toFloat.toModel.unpack
      Float.exactlyRepresentablePowersOfTen[0].toModel.unpack)) = _
    rw [unpack_first_power]
    show Float.ofModel (.pack (mul .binary64 (unpack .binary64 (pack .binary64
      (UnpackedFloat.ofNat .binary64 n.toUInt64.toNat))) one)) = _
    rw [hword, hofNat.unpack_pack]
  rw [hproduct, hofNat.mul_one]
  exact standsFor_pack hofNat

theorem standsFor_ofNat_long (h : 2 ^ 53 ≤ n) (hsmall : n.log2 ≤ 1022) :
    StandsFor (Float.ofNat n).toModel.unpack (nearest n) := by
  have hround := standsFor_round .positive (n := n) (j := 53) (by omega) hsmall (by omega)
  have hbits : (2 : Int) ^ Format.binary64.exponentBits = 2048 := rfl
  have hscientific : Float.ofNat n = .ofModel
      (.pack (roundWithAccuracy .binary64 .positive (n * 2 ^ 53) (-(53 : Nat)) .exact)) := by
    show Float.ofScientific n false 0 = _
    unfold Float.ofScientific
    rw [dif_neg (by omega)]
    show Float.ofModel (.pack (ofScientific .binary64 n 0)) = _
    unfold ofScientific
    rw [dif_neg (by omega), hbits, if_neg (by decide), if_neg (by omega), if_pos (by decide)]
    show Float.ofModel (.pack (roundWithAccuracy .binary64 .positive (n <<< 53 * 1)
      (-(53 : Nat) + 0) .exact)) = _
    rw [Nat.shiftLeft_eq, Nat.mul_one, Int.add_zero]
  rw [hscientific]
  exact standsFor_pack hround

theorem StandsFor.neg {x : UnpackedFloat} {z : Int} (h : StandsFor x z) : StandsFor x.neg (-z) := by
  cases h with
  | zero => exact .zero
  | @finite s m hm e k z hexponent hsmall hlow hhigh hvalue =>
    have hsign : -s.apply (z : Int) = (-s).apply z := by
      cases s
      · exact Int.neg_neg _
      · rfl
    rw [hsign]
    exact .finite hexponent hsmall hlow hhigh hvalue

/-- The float of a whole number of at most 1023 binary digits stands for its nearest. -/
theorem standsFor_ofInt {z : Int} (hsmall : z.natAbs.log2 ≤ 1022) :
    StandsFor (Float.ofInt z).toModel.unpack (nearestInt z) := by
  have hofNat : ∀ n : Nat, n.log2 ≤ 1022 →
      StandsFor (Float.ofNat n).toModel.unpack (nearest n) := by
    intro n hlog
    by_cases hn : n < 2 ^ 53
    · exact standsFor_ofNat_short hn
    · exact standsFor_ofNat_long (by omega) hlog
  cases z with
  | ofNat n => exact hofNat n hsmall
  | negSucc n => exact standsFor_pack (hofNat (n + 1) hsmall).neg

/-! ## The order of floats -/

section Order

variable {m' k' z z' : Nat} (hlow' : 2 ^ 52 ≤ m') (hhigh : m < 2 ^ 53)
  (hvalue : m * 2 ^ k = z * 2 ^ 52) (hvalue' : m' * 2 ^ k' = z' * 2 ^ 52)

include hlow' hhigh hvalue hvalue'

theorem lt_of_place_lt (h : k < k') : z < z' := by
  have hscaled : m * 2 ^ k < m' * 2 ^ k' := by
    calc m * 2 ^ k < 2 ^ 53 * 2 ^ k := Nat.mul_lt_mul_of_pos_right hhigh (Nat.two_pow_pos k)
      _ = 2 ^ 52 * 2 ^ (k + 1) := by
        rw [Nat.pow_succ]
        omega
      _ ≤ 2 ^ 52 * 2 ^ k' := Nat.mul_le_mul_left _ (Nat.pow_le_pow_right (by decide) h)
      _ ≤ m' * 2 ^ k' := Nat.mul_le_mul_right _ hlow'
  omega

/-- Floats are in the order of their places, and at one place in that of their mantissas. -/
theorem compare_place (hlow : 2 ^ 52 ≤ m) (hhigh' : m' < 2 ^ 53) :
    (compare (k - 52 : Int) (k' - 52)).then (compare m m') = compare (z : Int) z' := by
  rcases Nat.lt_trichotomy k k' with hlt | rfl | hgt
  · have hz := lt_of_place_lt hlow' hhigh hvalue hvalue' hlt
    rw [Int.compare_eq_lt.mpr (by omega), Int.compare_eq_lt.mpr (by omega)]
    rfl
  · have hpos : 0 < 2 ^ k := Nat.two_pow_pos k
    rw [Int.compare_eq_eq.mpr rfl]
    show compare m m' = _
    rcases Nat.lt_trichotomy m m' with hlt | rfl | hgt
    · have hscaled := Nat.mul_lt_mul_of_pos_right hlt hpos
      rw [Nat.compare_eq_lt.mpr hlt, Int.compare_eq_lt.mpr (by omega)]
    · rw [Nat.compare_eq_eq.mpr rfl, Int.compare_eq_eq.mpr (by omega)]
    · have hscaled := Nat.mul_lt_mul_of_pos_right hgt hpos
      rw [Nat.compare_eq_gt.mpr hgt, Int.compare_eq_gt.mpr (by omega)]
  · have hz := lt_of_place_lt hlow hhigh' hvalue' hvalue hgt
    rw [Int.compare_eq_gt.mpr (by omega), Int.compare_eq_gt.mpr (by omega)]
    rfl

end Order

theorem pos_of_mantissa {z : Nat} (hlow : 2 ^ 52 ≤ m) (hvalue : m * 2 ^ k = z * 2 ^ 52) :
    0 < z := by
  have hscaled : 0 < m * 2 ^ k := Nat.mul_pos (by omega) (Nat.two_pow_pos k)
  omega

theorem compare_neg (a b : Int) : compare (-a) (-b) = (compare a b).swap := by
  rw [Int.compare_swap]
  rcases Int.lt_trichotomy a b with hlt | rfl | hgt
  · rw [Int.compare_eq_gt.mpr (by omega), Int.compare_eq_gt.mpr hlt]
  · rw [Int.compare_eq_eq.mpr rfl, Int.compare_eq_eq.mpr rfl]
  · rw [Int.compare_eq_lt.mpr (by omega), Int.compare_eq_lt.mpr hgt]

/-- Floats that stand for whole numbers are in the order of these. -/
theorem StandsFor.compare_eq {x y : UnpackedFloat} {a b : Int} (hx : StandsFor x a)
    (hy : StandsFor y b) : x.compare y = some (compare a b) := by
  cases hx with
  | zero =>
    cases hy with
    | zero => rfl
    | @finite t n _ f k' z' hf _ hlow' _ hvalue' =>
      have hz' := pos_of_mantissa hlow' hvalue'
      cases t with
      | negative => exact congrArg some (Int.compare_eq_gt.mpr (Int.neg_neg_of_pos (by omega))).symm
      | positive => exact congrArg some (Int.compare_eq_lt.mpr (Int.ofNat_lt.mpr hz')).symm
  | @finite s m _ e k z he _ hlow hhigh hvalue =>
    have hz := pos_of_mantissa hlow hvalue
    cases hy with
    | zero =>
      cases s with
      | negative => exact congrArg some (Int.compare_eq_lt.mpr (Int.neg_neg_of_pos (by omega))).symm
      | positive => exact congrArg some (Int.compare_eq_gt.mpr (Int.ofNat_lt.mpr hz)).symm
    | @finite t n _ f k' z' hf _ hlow' hhigh' hvalue' =>
      have hz' := pos_of_mantissa hlow' hvalue'
      have hplace : (compare e f).then (compare m n) = compare (z : Int) z' := by
        rw [he, hf]
        exact compare_place hlow' hhigh hvalue hvalue' hlow hhigh'
      cases s with
      | positive =>
        cases t with
        | positive => exact congrArg some hplace
        | negative =>
          have hgt : -(z' : Int) < z := by omega
          exact congrArg some (Int.compare_eq_gt.mpr hgt).symm
      | negative =>
        cases t with
        | positive =>
          have hlt : -(z : Int) < z' := by omega
          exact congrArg some (Int.compare_eq_lt.mpr hlt).symm
        | negative =>
          exact congrArg some ((congrArg Ordering.swap hplace).trans (compare_neg z z').symm)

end TriageFlow.Decimal
