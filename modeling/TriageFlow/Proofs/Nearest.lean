import Mathlib.Algebra.Order.Ring.Nat
import TriageFlow.Decimal.Rounding

/-!
Whole numbers of at most 53 binary digits before their zeros, those that a 64-bit float can hold.
Every number has a nearest one (`Decimal.nearest`). To go to the nearest keeps the order
(`nearest_mono`) and leaves alone what has room (`nearest_of_le`), so that a number with room is
still told from every other (`compare_nearestInt`).
-/

namespace TriageFlow.Decimal

/-- `n / 2 ^ k` to the nearest whole number, a half to the even one. -/
def halfEven (n k : Nat) : Nat :=
  if 2 * (n % 2 ^ k) < 2 ^ k ∨ (2 * (n % 2 ^ k) = 2 ^ k ∧ n / 2 ^ k % 2 = 0) then n / 2 ^ k
  else n / 2 ^ k + 1

/-- The binary digits of a number that a float has no room for. -/
def surplus (n : Nat) : Nat := n.log2 + 1 - 53

/-- The nearest number of at most 53 binary digits before its zeros, a half to the even one. -/
def nearest (n : Nat) : Nat := halfEven n (surplus n) * 2 ^ surplus n

/-- An integer that a 64-bit float has room for. -/
def HasRoom (z : Int) : Prop := ∃ (a : Int) (k : Nat), a.natAbs ≤ 2 ^ 53 ∧ z = a * 2 ^ k

/-- The nearest integer with room. -/
def nearestInt : Int → Int
  | .ofNat n => nearest n
  | .negSucc n => -nearest (n + 1)

variable {n m k j : Nat}

/-! ## Division to the nearest -/

theorem halfEven_zero (n : Nat) : halfEven n 0 = n := by
  simp [halfEven, Nat.mod_one]

theorem halfEven_bounds (n k : Nat) : n / 2 ^ k ≤ halfEven n k ∧ halfEven n k ≤ n / 2 ^ k + 1 := by
  unfold halfEven
  split <;> omega

theorem halfEven_mul (n k j : Nat) : halfEven (n * 2 ^ j) (k + j) = halfEven n k := by
  have hpos : 0 < 2 ^ j := Nat.two_pow_pos j
  have hquotient : n * 2 ^ j / 2 ^ (k + j) = n / 2 ^ k := by
    rw [Nat.pow_add, Nat.mul_div_mul_right _ _ hpos]
  have hrest : n * 2 ^ j % 2 ^ (k + j) = n % 2 ^ k * 2 ^ j := by
    rw [Nat.pow_add, Nat.mul_mod_mul_right]
  have htwice : 2 * (n % 2 ^ k * 2 ^ j) = 2 * (n % 2 ^ k) * 2 ^ j := (Nat.mul_assoc _ _ _).symm
  unfold halfEven
  rw [hquotient, hrest, htwice, Nat.pow_add]
  simp only [Nat.mul_lt_mul_right hpos, Nat.mul_left_inj hpos.ne']

/-- A number is at most half a unit away from what it is rounded to. -/
theorem halfEven_error (n k : Nat) :
    2 * n ≤ 2 * (halfEven n k * 2 ^ k) + 2 ^ k ∧ 2 * (halfEven n k * 2 ^ k) ≤ 2 * n + 2 ^ k := by
  have hsplit := Nat.div_add_mod n (2 ^ k)
  have hrest := Nat.mod_lt n (Nat.two_pow_pos k)
  rw [Nat.mul_comm] at hsplit
  unfold halfEven
  split
  · omega
  · rw [Nat.add_mul]
    omega

theorem halfEven_mono (h : n ≤ m) (k : Nat) : halfEven n k ≤ halfEven m k := by
  have hquotient : n / 2 ^ k ≤ m / 2 ^ k := Nat.div_le_div_right h
  rcases Nat.lt_or_eq_of_le hquotient with hlt | heq
  · have hn := (halfEven_bounds n k).2
    have hm := (halfEven_bounds m k).1
    omega
  · have hsplit := Nat.div_add_mod n (2 ^ k)
    have hsplit' := Nat.div_add_mod m (2 ^ k)
    rw [← heq] at hsplit'
    unfold halfEven
    rw [← heq]
    split <;> split <;> omega

/-! ## The nearest number with room -/

theorem surplus_of_short (h : n.log2 ≤ 52) : surplus n = 0 := by
  unfold surplus
  omega

theorem nearest_of_short (h : n.log2 ≤ 52) : nearest n = n := by
  rw [nearest, surplus_of_short h, halfEven_zero, Nat.pow_zero, Nat.mul_one]

theorem two_pow_log2 (h : 52 < n.log2) : 2 ^ n.log2 = 2 ^ 52 * 2 ^ surplus n := by
  have hsurplus : n.log2 = 52 + surplus n := by
    unfold surplus
    omega
  rw [← Nat.pow_add, ← hsurplus]

theorem le_nearest (h : n ≠ 0) : 2 ^ n.log2 ≤ nearest n := by
  have hlow : 2 ^ n.log2 ≤ n := Nat.log2_self_le h
  by_cases hshort : n.log2 ≤ 52
  · rw [nearest_of_short hshort]
    exact hlow
  · have hlog := two_pow_log2 (Nat.lt_of_not_le hshort)
    have hquotient : 2 ^ 52 ≤ n / 2 ^ surplus n := by
      rw [Nat.le_div_iff_mul_le (Nat.two_pow_pos _), ← hlog]
      exact hlow
    rw [hlog]
    exact Nat.mul_le_mul_right _ (Nat.le_trans hquotient (halfEven_bounds n _).1)

theorem two_pow_log2_succ (h : 52 < n.log2) : 2 ^ (n.log2 + 1) = 2 ^ 53 * 2 ^ surplus n := by
  rw [Nat.pow_succ, two_pow_log2 h]
  omega

theorem halfEven_surplus_le (n : Nat) : halfEven n (surplus n) ≤ 2 ^ 53 := by
  have hhigh : n < 2 ^ (n.log2 + 1) := Nat.lt_log2_self
  by_cases hshort : n.log2 ≤ 52
  · have hle : 2 ^ (n.log2 + 1) ≤ 2 ^ 53 := Nat.pow_le_pow_right (by decide) (by omega)
    rw [surplus_of_short hshort, halfEven_zero]
    omega
  · have hquotient : n / 2 ^ surplus n < 2 ^ 53 := by
      rw [Nat.div_lt_iff_lt_mul (Nat.two_pow_pos _), ← two_pow_log2_succ (Nat.lt_of_not_le hshort)]
      exact hhigh
    exact Nat.le_trans (halfEven_bounds n _).2 hquotient

theorem nearest_le (n : Nat) : nearest n ≤ 2 ^ (n.log2 + 1) := by
  by_cases hshort : n.log2 ≤ 52
  · rw [nearest_of_short hshort]
    exact Nat.lt_log2_self.le
  · rw [two_pow_log2_succ (Nat.lt_of_not_le hshort)]
    exact Nat.mul_le_mul_right _ (halfEven_surplus_le n)

/-- What is rounded keeps its order. -/
theorem nearest_mono (h : n ≤ m) : nearest n ≤ nearest m := by
  by_cases hzero : n = 0
  · have hnearest : nearest n = 0 := by
      rw [hzero]
      decide
    omega
  have hm : m ≠ 0 := by omega
  have hlog : n.log2 ≤ m.log2 := (Nat.le_log2 hm).mpr (Nat.le_trans (Nat.log2_self_le hzero) h)
  rcases Nat.lt_or_eq_of_le hlog with hlt | heq
  · calc nearest n ≤ 2 ^ (n.log2 + 1) := nearest_le n
      _ ≤ 2 ^ m.log2 := Nat.pow_le_pow_right (by decide) hlt
      _ ≤ nearest m := le_nearest hm
  · have hsurplus : surplus n = surplus m := by rw [surplus, surplus, heq]
    unfold nearest
    rw [hsurplus]
    exact Nat.mul_le_mul_right _ (halfEven_mono h _)

/-- Numbers with room are their own nearest. -/
theorem nearest_of_le (h : n ≤ 2 ^ 53) : nearest n = n := by
  rcases Nat.lt_or_eq_of_le h with hlt | rfl
  · refine nearest_of_short ?_
    by_cases hzero : n = 0
    · rw [hzero]
      decide
    · have hlog : n.log2 < 53 := (Nat.log2_lt hzero).mpr hlt
      omega
  · decide +kernel

/-- No multiple of the unit of the last place is nearer. -/
theorem nearest_error_le_multiple (n b : Nat) :
    (nearest n - n : Int).natAbs ≤ ((b * 2 ^ surplus n : Nat) - n : Int).natAbs := by
  have herror := halfEven_error n (surplus n)
  unfold nearest
  rcases Nat.lt_trichotomy b (halfEven n (surplus n)) with hlt | heq | hgt
  · have hstep := Nat.mul_le_mul_right (2 ^ surplus n) hlt
    rw [Nat.succ_mul] at hstep
    omega
  · rw [heq]
  · have hstep := Nat.mul_le_mul_right (2 ^ surplus n) hgt
    rw [Nat.succ_mul] at hstep
    omega

/-- No number of at most 53 binary digits before its zeros is nearer. -/
theorem nearest_error_le (n : Nat) {a : Nat} (ha : a ≤ 2 ^ 53) (k : Nat) :
    (nearest n - n : Int).natAbs ≤ ((a * 2 ^ k : Nat) - n : Int).natAbs := by
  by_cases hshort : n.log2 ≤ 52
  · rw [nearest_of_short hshort]
    omega
  by_cases hplace : surplus n ≤ k
  · have hsplit : a * 2 ^ k = a * 2 ^ (k - surplus n) * 2 ^ surplus n := by
      rw [Nat.mul_assoc, ← Nat.pow_add, Nat.sub_add_cancel hplace]
    rw [hsplit]
    exact nearest_error_le_multiple n _
  · -- a number of a finer unit is below the first digit of `n`, which is a multiple of the unit
    have hlog := two_pow_log2 (Nat.lt_of_not_le hshort)
    have hpos : n ≠ 0 := by
      intro hzero
      rw [hzero] at hshort
      exact hshort (by decide)
    have hlow : 2 ^ n.log2 ≤ n := Nat.log2_self_le hpos
    have hfine : a * 2 ^ k ≤ 2 ^ n.log2 := by
      calc a * 2 ^ k ≤ 2 ^ 53 * 2 ^ k := Nat.mul_le_mul_right _ ha
        _ = 2 ^ 52 * 2 ^ (k + 1) := by
          rw [Nat.pow_succ]
          omega
        _ ≤ 2 ^ 52 * 2 ^ surplus n :=
          Nat.mul_le_mul_left _ (Nat.pow_le_pow_right (by decide) (by omega))
        _ = 2 ^ n.log2 := hlog.symm
    have hfirst := nearest_error_le_multiple n (2 ^ 52)
    rw [← hlog] at hfirst
    omega

/-! ## Integers -/

theorem nearestInt_mono {a b : Int} (h : a ≤ b) : nearestInt a ≤ nearestInt b := by
  cases a with
  | ofNat n =>
    cases b with
    | ofNat m => exact Int.ofNat_le.mpr (nearest_mono (Int.ofNat_le.mp h))
    | negSucc m =>
      have hnegative : Int.negSucc m < Int.ofNat n :=
        Int.lt_of_lt_of_le (Int.negSucc_lt_zero m) (Int.natCast_nonneg n)
      exact absurd h (Int.not_le.mpr hnegative)
  | negSucc n =>
    cases b with
    | ofNat m =>
      show -(nearest (n + 1) : Int) ≤ nearest m
      omega
    | negSucc m =>
      have hle : nearest (m + 1) ≤ nearest (n + 1) := nearest_mono (by omega)
      show -(nearest (n + 1) : Int) ≤ -(nearest (m + 1) : Int)
      omega

theorem hasRoom_nearestInt (z : Int) : HasRoom (nearestInt z) := by
  have hcast : ∀ n : Nat, (nearest n : Int) = (halfEven n (surplus n) : Int) * 2 ^ surplus n := by
    intro n
    unfold nearest
    push_cast
    rfl
  cases z with
  | ofNat n => exact ⟨halfEven n (surplus n), surplus n, halfEven_surplus_le n, hcast n⟩
  | negSucc n =>
    refine ⟨-(halfEven (n + 1) (surplus (n + 1)) : Int), surplus (n + 1), ?_, ?_⟩
    · rw [Int.natAbs_neg]
      exact halfEven_surplus_le (n + 1)
    · show -(nearest (n + 1) : Int) = _
      rw [hcast, Int.neg_mul]

/-- No integer with room is nearer. -/
theorem nearestInt_error_le {w : Int} (h : HasRoom w) (z : Int) :
    (nearestInt z - z).natAbs ≤ (w - z).natAbs := by
  obtain ⟨a, k, ha, hw⟩ := h
  have habs : w.natAbs = a.natAbs * 2 ^ k := by
    rw [hw, Int.natAbs_mul, Int.natAbs_pow]
    rfl
  -- an integer of the other sign is further away than zero
  have hnat : ∀ n : Nat, (nearest n - n : Int).natAbs ≤ (w.natAbs - n : Int).natAbs ∧
      (nearest n - n : Int).natAbs ≤ n := by
    intro n
    have hzero := nearest_error_le n (Nat.zero_le (2 ^ 53)) 0
    refine ⟨?_, ?_⟩
    · rw [habs]
      exact nearest_error_le n ha k
    · rw [Nat.zero_mul] at hzero
      omega
  cases z with
  | ofNat n =>
    obtain ⟨hle, hzero⟩ := hnat n
    show (nearest n - n : Int).natAbs ≤ (w - n).natAbs
    omega
  | negSucc n =>
    obtain ⟨hle, hzero⟩ := hnat (n + 1)
    show (-(nearest (n + 1) : Int) - -(n + 1 : Nat)).natAbs ≤ (w - -(n + 1 : Nat)).natAbs
    omega

theorem nearestInt_of_natAbs_le {a : Int} (h : a.natAbs ≤ 2 ^ 53) : nearestInt a = a := by
  cases a with
  | ofNat n => exact congrArg _ (nearest_of_le h)
  | negSucc n => exact congrArg (fun n : Nat => -(n : Int)) (nearest_of_le h)

/-- An integer of 64 bits is at most 1024 away from its nearest. -/
theorem nearestInt_error {a : Int} (h : a.natAbs < 2 ^ 64) :
    (nearestInt a - a).natAbs ≤ 2 ^ 10 := by
  have hnat : ∀ n : Nat, n < 2 ^ 64 → (nearest n - n : Int).natAbs ≤ 2 ^ 10 := by
    intro n hn
    have hsurplus : surplus n ≤ 11 := by
      have hlog : n.log2 < 64 ∨ n = 0 := by
        by_cases hzero : n = 0
        · exact .inr hzero
        · exact .inl ((Nat.log2_lt hzero).mpr hn)
      rcases hlog with hlog | rfl
      · unfold surplus
        omega
      · decide
    have hunit : 2 ^ surplus n ≤ 2 ^ 11 := Nat.pow_le_pow_right (by decide) hsurplus
    have herror := halfEven_error n (surplus n)
    unfold nearest
    omega
  cases a with
  | ofNat n => exact hnat n h
  | negSucc n =>
    have herror := hnat (n + 1) h
    show (-(nearest (n + 1) : Int) - .negSucc n).natAbs ≤ _
    omega

/-- An integer with room to spare is told from every other after both are rounded. -/
theorem compare_nearestInt {a b : Int} (h : a.natAbs < 2 ^ 53 ∨ b.natAbs < 2 ^ 53) :
    compare (nearestInt a) (nearestInt b) = compare a b := by
  have hright : ∀ a b : Int, b.natAbs < 2 ^ 53 →
      compare (nearestInt a) (nearestInt b) = compare a b := by
    intro a b hb
    have hnear : nearestInt b = b := nearestInt_of_natAbs_le hb.le
    by_cases ha : a.natAbs ≤ 2 ^ 53
    · rw [hnear, nearestInt_of_natAbs_le ha]
    by_cases hsign : 0 ≤ a
    · have hlow := nearestInt_mono (a := 2 ^ 53) (b := a) (by omega)
      rw [nearestInt_of_natAbs_le (by decide)] at hlow
      rw [hnear, Int.compare_eq_gt.mpr (by omega), Int.compare_eq_gt.mpr (by omega)]
    · have hhigh := nearestInt_mono (a := a) (b := -2 ^ 53) (by omega)
      rw [nearestInt_of_natAbs_le (a := -2 ^ 53) (by decide)] at hhigh
      rw [hnear, Int.compare_eq_lt.mpr (by omega), Int.compare_eq_lt.mpr (by omega)]
  rcases h with ha | hb
  · rw [← Int.compare_swap, hright b a ha, Int.compare_swap]
  · exact hright a b hb

theorem nearestInt_eq_iff {a b : Int} (h : a.natAbs < 2 ^ 53 ∨ b.natAbs < 2 ^ 53) :
    nearestInt a = nearestInt b ↔ a = b := by
  rw [← Int.compare_eq_eq, compare_nearestInt h, Int.compare_eq_eq]

/-- Integers of 64 bits that are rounded to the same number are close together. -/
theorem sub_le_of_nearestInt_eq {a b : Int} (ha : a.natAbs < 2 ^ 64) (hb : b.natAbs < 2 ^ 64)
    (h : nearestInt a = nearestInt b) : (a - b).natAbs ≤ 2 ^ 11 := by
  have herror := nearestInt_error ha
  have herror' := nearestInt_error hb
  omega

end TriageFlow.Decimal
