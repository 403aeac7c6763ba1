import Mathlib.Order.Monotone.Basic
import TriageFlow.Proofs.Attempts
import TriageFlow.Settings.Basic

/-!
How long the waits between attempts are, before jitter. A wait is the initial one, doubled once for each earlier
attempt, but no longer than the greatest one. Worked out in words of 64 bits it is the same number
(`RetryPolicy.toNat_doubled`): a product that takes more than a word is cut to the greatest word,
and where the power of two alone takes more, so is the wait. Below a greatest wait that is a word,
these cuts show in one case only: an initial wait of zero, of which there is nothing to double,
stays zero for 64 attempts and is the greatest wait from then on
(`RetryPolicy.waits_double_up_to_most`).
-/

namespace TriageFlow

/-! ## Words of 64 bits -/

namespace Word

variable {x y z : UInt64} {n : Nat}

/-- A product, unless it takes more than a word. -/
def mul? (x y : UInt64) : Option UInt64 :=
  if x.toNat * y.toNat < UInt64.size then some (x * y) else none

/-- A power, unless it takes more than a word. -/
def pow? (x : UInt64) : Nat → Option UInt64
  | 0 => some 1
  | n + 1 => (pow? x n).bind (mul? x)

/-- The greatest word. -/
def greatest : UInt64 := .ofNat longestWait

/-- A product, cut to a word. -/
def mulUpTo (x y : UInt64) : UInt64 := (mul? x y).getD greatest

theorem toNat_greatest : greatest.toNat = longestWait := rfl

theorem toNat_le_longestWait (x : UInt64) : x.toNat ≤ longestWait := Nat.le_pred_of_lt x.toNat_lt

/-- A product that is a word is not wrapped around, and no other one is given. -/
theorem mul?_eq_some_iff : mul? x y = some z ↔ z.toNat = x.toNat * y.toNat := by
  unfold mul?
  split
  · next hfits =>
    have hproduct : (x * y).toNat = x.toNat * y.toNat := by
      rw [UInt64.toNat_mul]
      exact Nat.mod_eq_of_lt hfits
    rw [Option.some_inj, ← UInt64.toNat_inj, hproduct, eq_comm]
  · next hlong =>
    refine iff_of_false nofun fun heq => hlong ?_
    rw [← heq]
    exact z.toNat_lt

theorem pow?_eq_some_iff (hx : 0 < x.toNat) : pow? x n = some y ↔ y.toNat = x.toNat ^ n := by
  induction n generalizing y with
  | zero =>
    rw [pow?, Option.some_inj, ← UInt64.toNat_inj, Nat.pow_zero, eq_comm]
    rfl
  | succ n ih =>
    rw [pow?, Option.bind_eq_some_iff, Nat.pow_succ']
    constructor
    · rintro ⟨z, hz, hy⟩
      rw [mul?_eq_some_iff.mp hy, ih.mp hz]
    · intro hy
      -- the power before is no greater, so it is a word too
      have hfits : x.toNat ^ n < UInt64.size := by
        have hle : x.toNat ^ n ≤ x.toNat * x.toNat ^ n := Nat.le_mul_of_pos_left _ hx
        exact Nat.lt_of_le_of_lt (hy ▸ hle) y.toNat_lt
      refine ⟨.ofNatLT _ hfits, ih.mpr UInt64.toNat_ofNatLT, ?_⟩
      rw [mul?_eq_some_iff, UInt64.toNat_ofNatLT, hy]

theorem pow?_two_eq_some_iff : pow? 2 n = some y ↔ y.toNat = 2 ^ n :=
  pow?_eq_some_iff (by decide : 0 < (2 : UInt64).toNat)

/-- A word has room for as many powers of two as it has bits. -/
theorem exists_pow?_two (h : n < 64) : ∃ y, pow? 2 n = some y ∧ y.toNat = 2 ^ n := by
  have hfits : 2 ^ n < UInt64.size := Nat.pow_lt_pow_right Nat.one_lt_two h
  have hy : (UInt64.ofNatLT (2 ^ n) hfits).toNat = 2 ^ n := UInt64.toNat_ofNatLT
  exact ⟨_, pow?_two_eq_some_iff.mpr hy, hy⟩

theorem pow?_two_eq_none (h : 64 ≤ n) : pow? 2 n = none := by
  refine Option.eq_none_iff_forall_ne_some.mpr fun y hy => ?_
  have hsize : UInt64.size ≤ 2 ^ n := Nat.pow_le_pow_right Nat.two_pos h
  have hword : 2 ^ n < UInt64.size := pow?_two_eq_some_iff.mp hy ▸ y.toNat_lt
  exact absurd hword (Nat.not_lt.mpr hsize)

theorem toNat_mulUpTo (x y : UInt64) :
    (mulUpTo x y).toNat = min (x.toNat * y.toNat) longestWait := by
  unfold mulUpTo
  cases hproduct : mul? x y with
  | some z =>
    have hz := mul?_eq_some_iff.mp hproduct
    rw [Option.getD_some, ← hz, Nat.min_eq_left (toNat_le_longestWait z)]
  | none =>
    have hlong : ¬x.toNat * y.toNat < UInt64.size := by
      intro hfits
      rw [mul?, if_pos hfits] at hproduct
      cases hproduct
    have hle : longestWait ≤ x.toNat * y.toNat :=
      Nat.le_trans (Nat.pred_le UInt64.size) (Nat.not_lt.mp hlong)
    rw [Option.getD_none, toNat_greatest, Nat.min_eq_right hle]

/-- The wait after an attempt, worked out in words. Where the power of two takes more than a word,
the wait is taken to do so too. -/
def doubled (initial most : UInt64) (attempt : Nat) : UInt64 :=
  min (((pow? 2 attempt).map (mulUpTo initial)).getD greatest) most

end Word

/-! ## The wait after an attempt -/

namespace RetryPolicy

/-- A policy whose numbers are words. -/
def ofWords (retries : UInt32) (initial most : UInt64) : RetryPolicy :=
  ⟨retries.toNat, initial.toNat, most.toNat⟩

variable {p : RetryPolicy} {attempt : Nat}

theorem backoff_of_lt (h : attempt < 64) :
    p.backoff attempt = min (min (p.initialBackoff * 2 ^ attempt) longestWait) p.maxBackoff := by
  rw [backoff, if_pos h]
  rfl

theorem backoff_of_le (h : 64 ≤ attempt) : p.backoff attempt = min longestWait p.maxBackoff := by
  rw [backoff, if_neg (Nat.not_lt.mpr h)]

theorem backoff_le (p : RetryPolicy) (attempt : Nat) : p.backoff attempt ≤ p.maxBackoff :=
  Nat.min_le_right _ _

/-- A later wait is no shorter. -/
theorem monotone_backoff (p : RetryPolicy) : Monotone p.backoff := by
  intro earlier later hle
  obtain hlater | hlater := Nat.lt_or_ge later 64
  · rw [backoff_of_lt (Nat.lt_of_le_of_lt hle hlater), backoff_of_lt hlater]
    have hproduct : p.initialBackoff * 2 ^ earlier ≤ p.initialBackoff * 2 ^ later :=
      Nat.mul_le_mul_left _ (Nat.pow_le_pow_right Nat.two_pos hle)
    exact min_le_min_right _ (min_le_min_right _ hproduct)
  · rw [backoff_of_le hlater]
    refine Nat.le_min.mpr ⟨?_, backoff_le p earlier⟩
    obtain hearlier | hearlier := Nat.lt_or_ge earlier 64
    · rw [backoff_of_lt hearlier]
      exact Nat.le_trans (Nat.min_le_left _ _) (Nat.min_le_right _ _)
    · rw [backoff_of_le hearlier]
      exact Nat.min_le_left _ _

section Words

variable {retries : UInt32} {initial most : UInt64}

/-- For as many attempts as a word has bits, the cut to a word lies above the greatest wait. -/
theorem backoff_ofWords_of_lt (h : attempt < 64) :
    (ofWords retries initial most).backoff attempt =
      min (initial.toNat * 2 ^ attempt) most.toNat := by
  have hmost : min longestWait most.toNat = most.toNat :=
    Nat.min_eq_right (Word.toNat_le_longestWait most)
  rw [backoff_of_lt h, Nat.min_assoc, ofWords, hmost]

theorem backoff_ofWords_of_le (h : 64 ≤ attempt) :
    (ofWords retries initial most).backoff attempt = most.toNat := by
  rw [backoff_of_le h]
  exact Nat.min_eq_right (Word.toNat_le_longestWait most)

/-- The wait is the same in words: nothing wraps around. -/
theorem toNat_doubled (retries : UInt32) (initial most : UInt64) (attempt : Nat) :
    (Word.doubled initial most attempt).toNat =
      (ofWords retries initial most).backoff attempt := by
  unfold Word.doubled
  rw [UInt64.toNat_min]
  obtain hbits | hbits := Nat.lt_or_ge attempt 64
  · obtain ⟨factor, hpow, hfactor⟩ := Word.exists_pow?_two hbits
    rw [hpow, Option.map_some, Option.getD_some, Word.toNat_mulUpTo, hfactor, backoff_of_lt hbits]
    rfl
  · rw [Word.pow?_two_eq_none hbits, Option.map_none, Option.getD_none, Word.toNat_greatest,
      backoff_of_le hbits]
    rfl

/-- The wait is the doubled one, up to the greatest one, unless the power of two takes more than a
word and there is nothing to double. -/
theorem backoff_ofWords_eq_iff :
    (ofWords retries initial most).backoff attempt =
        min (initial.toNat * 2 ^ attempt) most.toNat ↔
      initial ≠ 0 ∨ attempt < 64 ∨ most = 0 := by
  obtain hbits | hbits := Nat.lt_or_ge attempt 64
  · exact iff_of_true (backoff_ofWords_of_lt hbits) (.inr (.inl hbits))
  rw [backoff_ofWords_of_le hbits]
  by_cases hinitial : initial = 0
  · simp [hinitial, Nat.not_lt.mpr hbits, ← UInt64.toNat_inj]
  · have hpos : 0 < initial.toNat := by
      refine Nat.pos_of_ne_zero fun hzero => hinitial ?_
      exact UInt64.toNat_inj.mp hzero
    -- what is doubled as often as a word has bits exceeds every word
    have hlong : most.toNat ≤ initial.toNat * 2 ^ attempt := by
      calc most.toNat ≤ 2 ^ 64 := Nat.le_of_lt most.toNat_lt
        _ ≤ 2 ^ attempt := Nat.pow_le_pow_right Nat.two_pos hbits
        _ ≤ initial.toNat * 2 ^ attempt := Nat.le_mul_of_pos_left _ hpos
    exact iff_of_true (Nat.min_eq_right hlong).symm (.inl hinitial)

end Words

end RetryPolicy

/-! ## The waits of a client -/

namespace Generative

/-- The waits of attempts are those after the attempts of consecutive numbers, whatever the gateway
answers. -/
theorem waits_attempts {σ : Type} (g : Generative σ) (p : RetryPolicy) (limit : Option Nat)
    (mode : Mode) (prompt : String) (left attempt elapsed : Nat) (s : σ) :
    ∃ retries ≤ left, (g.attempts p limit mode prompt left attempt elapsed s).waits =
      (List.range' attempt retries).map p.backoff := by
  induction left generalizing attempt elapsed s with
  | zero =>
    rcases g.attempts_cases p limit mode prompt 0 attempt elapsed s with
      ⟨-, hwaits | ⟨hzero, -⟩⟩ | ⟨rest, -, hzero, -⟩
    · exact ⟨0, Nat.le_refl 0, hwaits⟩
    · exact absurd rfl hzero
    · cases hzero
  | succ left ih =>
    rcases g.attempts_cases p limit mode prompt (left + 1) attempt elapsed s with
      ⟨-, hwaits | ⟨-, hwaits⟩⟩ | ⟨rest, later, hleft, -, hwaits⟩
    · exact ⟨0, Nat.zero_le _, hwaits⟩
    · exact ⟨1, Nat.succ_le_succ (Nat.zero_le left), hwaits⟩
    · cases hleft
      obtain ⟨retries, hretries, hlater⟩ := ih (attempt + 1) later
        (g.complete (limit.map (· - elapsed)) mode prompt s).2
      refine ⟨retries + 1, Nat.succ_le_succ hretries, ?_⟩
      rw [hwaits, hlater, List.range'_succ, List.map_cons]

end Generative

namespace RetryPolicy

/-- The wait after an attempt is the initial one, doubled once for each earlier attempt, up to the
greatest one, for 64 attempts in any case and for all of them if the initial wait is not zero or the
greatest one is. Without an initial wait there is none after these 64 attempts, and the greatest one
after every other. Waits never get shorter nor longer than the greatest one, and nothing wraps
around when they are worked out in words. They are what lies between the requests of a client, in
their order, whatever the gateway answers. -/
theorem waits_double_up_to_most (retries : UInt32) (initial most : UInt64) :
    (∀ attempt,
      (ofWords retries initial most).backoff attempt =
          min (initial.toNat * 2 ^ attempt) most.toNat ↔
        initial ≠ 0 ∨ attempt < 64 ∨ most = 0) ∧
    (∀ attempt, (ofWords retries 0 most).backoff attempt =
      if attempt < 64 then 0 else most.toNat) ∧
    Monotone (ofWords retries initial most).backoff ∧
    (∀ attempt, (ofWords retries initial most).backoff attempt ≤ most.toNat) ∧
    (∀ attempt, (ofWords retries initial most).backoff attempt =
      (Word.doubled initial most attempt).toNat) ∧
    ∀ (σ : Type) (g : Generative σ) (limit : Option Nat) (mode : Mode) (prompt : String) (s : σ),
      let p := ofWords retries initial most
      ∃ n ≤ p.maxRetries, (g.attempts p limit mode prompt p.maxRetries 0 0 s).waits =
        (List.range n).map p.backoff := by
  refine ⟨fun attempt => backoff_ofWords_eq_iff, fun attempt => ?_, monotone_backoff _,
    backoff_le _, fun attempt => (toNat_doubled retries initial most attempt).symm, ?_⟩
  · split
    · next hbits =>
      rw [backoff_ofWords_of_lt hbits, UInt64.toNat_zero, Nat.zero_mul, Nat.zero_min]
    · next hbits => exact backoff_ofWords_of_le (Nat.not_lt.mp hbits)
  · intro σ g limit mode prompt s p
    obtain ⟨n, hn, hwaits⟩ := g.waits_attempts p limit mode prompt p.maxRetries 0 0 s
    rw [← List.range_eq_range'] at hwaits
    exact ⟨n, hn, hwaits⟩

/-- A policy that asks again at once, sixty-five times. -/
def hasty : RetryPolicy := ofWords 65 0 1000

/-- A service that is busy whenever it is asked. -/
def alwaysBusy (_ : Nat) : Ending Completion :=
  .settled (.error (.service "scripted" "HTTP 503")) 0

/-- Without an initial wait there is nothing to double, and still the last of the hasty requests
waits for the greatest time. -/
theorem hasty_waits_at_last :
    ofValue? (.ofMembers [("max_retries", .nat 65), ("initial_backoff_ms", .nat 0),
      ("max_backoff_ms", .nat 1000)]) = some hasty ∧
    hasty.initialBackoff = 0 ∧ hasty.backoff 64 = 1000 ∧
    hasty.backoff 64 ≠ min (hasty.initialBackoff * 2 ^ 64) hasty.maxBackoff ∧
    ((Generative.inTurn alwaysBusy).attempts hasty none .text "Hi" hasty.maxRetries 0 0 []).waits =
      List.replicate 64 0 ++ [1000] := by
  have hattempts : (Generative.inTurn alwaysBusy).attempts hasty none .text "Hi" hasty.maxRetries 0
      0 [] = _ :=
    Generative.attempts_inTurn_of_start (Nat.le_refl 65) (fun _ _ => rfl) (.inr rfl) nofun
  rw [hattempts]
  exact ⟨rfl, rfl, rfl, by decide, by decide +kernel⟩

end RetryPolicy

end TriageFlow
