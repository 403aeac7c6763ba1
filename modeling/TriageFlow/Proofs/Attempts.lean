import Mathlib.Data.ENat.Lattice
import TriageFlow.Proofs.Retrying

/-!
How many requests repeated attempts make, when, and what comes of them. A gateway that gives its
endings in turn, whatever they are, is asked until the first ending that is no passing failure, or
until no retries are left (`Generative.attempts_inTurn`). Between two requests lies one wait, and the
last ending is what comes of all of them. Times are those of waits before jitter.
-/

namespace TriageFlow

namespace Ending

variable {α : Type}

/-- Whether nothing is asked for after an ending: after a success, after a lasting failure, and
where a call never ends. -/
def isFinal : Ending α → Bool
  | settled (.error fault) _ => !fault.isPassing
  | _ => true

/-- The time after which a call ends, if it does. -/
def duration : Ending α → Nat
  | settled _ after => after
  | never => 0

/-- The ending of a call that starts some time later. -/
def delayed (start : Nat) : Ending α → Ending α
  | settled result after => settled result (start + after)
  | never => never

theorem isFinal_eq_false_iff {ending : Ending α} : ending.isFinal = false ↔
    ∃ fault, ending = settled (.error fault) ending.duration ∧ fault.isPassing = true := by
  cases ending with
  | never => simp [isFinal]
  | settled result after => cases result <;> simp [isFinal, duration]

end Ending

namespace Generative

/-! ## One request -/

section Step

variable {σ : Type} {g : Generative σ} {p : RetryPolicy} {limit : Option Nat} {mode : Mode}
  {prompt : String}

/-- Nothing is asked after a final ending, nor after any ending where no retry is left. -/
theorem attempts_of_last {left attempt elapsed : Nat} {s s' : σ} {ending : Ending Completion}
    (h : g.complete (limit.map (· - elapsed)) mode prompt s = (ending, s'))
    (hlast : ending.isFinal = true ∨ left = 0) :
    g.attempts p limit mode prompt left attempt elapsed s = ⟨ending.delayed elapsed, [], s'⟩ := by
  cases ending with
  | never =>
    rw [attempts, h]
    rfl
  | settled result after =>
    cases result with
    | ok completion =>
      rw [attempts, h]
      rfl
    | error fault =>
      cases left with
      | zero =>
        rw [attempts, h]
        rfl
      | succ left =>
        have hlasting : fault.isPassing = false := by simpa [Ending.isFinal] using hlast
        exact attempts_of_lasting h hlasting

end Step

/-! ## Endings in turn -/

/-- What a gateway is asked: the time that is left for it, the shape and the prompt. -/
structure Request where
  limit : Option Nat
  mode : Mode
  prompt : String
deriving DecidableEq

/-- A gateway that gives some endings in turn and keeps what it is asked, the latest last. -/
def inTurn (endings : Nat → Ending Completion) : Generative (List Request) where
  name := "in turn"
  complete limit mode prompt asked := (endings asked.length, asked ++ [⟨limit, mode, prompt⟩])

/-- The index of the first final ending; infinite, if there is none. -/
noncomputable def firstFinal (endings : Nat → Ending Completion) : ℕ∞ :=
  sInf {k | ∃ n : Nat, (endings n).isFinal = true ∧ k = n}

/-- When a request is made, counted from zero, if none of the earlier endings is final: the earlier
ones take their time, and after each of them there is one wait. -/
def startOf (p : RetryPolicy) (endings : Nat → Ending Completion) : Nat → Nat
  | 0 => 0
  | n + 1 => startOf p endings n + (endings n).duration + p.backoff n

/-- The first so many requests. -/
def requests (p : RetryPolicy) (endings : Nat → Ending Completion) (limit : Option Nat)
    (mode : Mode) (prompt : String) (n : Nat) : List Request :=
  (List.range n).map fun i => ⟨limit.map (· - startOf p endings i), mode, prompt⟩

section InTurn

variable {endings : Nat → Ending Completion} {n : Nat}

theorem firstFinal_le (h : (endings n).isFinal = true) : firstFinal endings ≤ n :=
  sInf_le ⟨n, h, rfl⟩

theorem isFinal_of_lt (h : (n : ℕ∞) < firstFinal endings) : (endings n).isFinal = false := by
  rw [← Bool.not_eq_true]
  intro hfinal
  exact absurd (firstFinal_le hfinal) (not_le.mpr h)

theorem firstFinal_eq (h : (endings n).isFinal = true)
    (hbefore : ∀ i < n, (endings i).isFinal = false) : firstFinal endings = n := by
  refine le_antisymm (firstFinal_le h) (le_sInf ?_)
  rintro _ ⟨i, hi, rfl⟩
  rw [Nat.cast_le]
  by_contra hlt
  rw [hbefore i (by omega)] at hi
  cases hi

/-- The retries that a stream of endings takes, up to some most. -/
theorem exists_retries (endings : Nat → Ending Completion) (most : Nat) :
    ∃ retries ≤ most, (retries : ℕ∞) = min (firstFinal endings) most ∧
      (∀ i < retries, (endings i).isFinal = false) ∧
      ((endings retries).isFinal = true ∨ retries = most) := by
  have hbefore {retries : Nat} (h : (retries : ℕ∞) = min (firstFinal endings) most) :
      ∀ i < retries, (endings i).isFinal = false := by
    intro i hi
    apply isFinal_of_lt
    have hlt : (i : ℕ∞) < retries := Nat.cast_lt.mpr hi
    rw [h] at hlt
    exact lt_of_lt_of_le hlt (min_le_left _ _)
  obtain hle | hlt := le_or_gt (firstFinal endings) most
  · have hfinite : firstFinal endings ≠ ⊤ := ne_top_of_le_ne_top (ENat.natCast_ne_top most) hle
    have hsome : {k : ℕ∞ | ∃ n : Nat, (endings n).isFinal = true ∧ k = n}.Nonempty := by
      by_contra hempty
      rw [Set.not_nonempty_iff_eq_empty] at hempty
      exact hfinite (by rw [firstFinal, hempty, sInf_empty])
    obtain ⟨retries, hfinal, heq⟩ := csInf_mem hsome
    change firstFinal endings = retries at heq
    have hmin : (retries : ℕ∞) = min (firstFinal endings) most := by rw [min_eq_left hle, heq]
    refine ⟨retries, ?_, hmin, hbefore hmin, .inl hfinal⟩
    rw [heq] at hle
    exact Nat.cast_le.mp hle
  · have hmin : (most : ℕ∞) = min (firstFinal endings) most := (min_eq_right hlt.le).symm
    exact ⟨most, Nat.le_refl most, hmin, hbefore hmin, .inr rfl⟩

theorem complete_inTurn (p : RetryPolicy) (endings : Nat → Ending Completion)
    (limit : Option Nat) (mode : Mode) (prompt : String) (n : Nat) :
    (inTurn endings).complete (limit.map (· - startOf p endings n)) mode prompt
      (requests p endings limit mode prompt n) =
        (endings n, requests p endings limit mode prompt (n + 1)) := by
  have hlength : (requests p endings limit mode prompt n).length = n := by
    rw [requests, List.length_map, List.length_range]
  have hasked : requests p endings limit mode prompt (n + 1) =
      requests p endings limit mode prompt n ++
        [⟨limit.map (· - startOf p endings n), mode, prompt⟩] := by
    rw [requests, List.range_succ, List.map_append, List.map_singleton]
    rfl
  unfold inTurn
  dsimp only
  rw [hlength, hasked]

theorem startOf_le (p : RetryPolicy) (endings : Nat → Ending Completion) {m : Nat} (h : n ≤ m) :
    startOf p endings n ≤ startOf p endings m := by
  induction h with
  | refl => exact Nat.le_refl _
  | step h ih =>
    rw [startOf]
    omega

variable {p : RetryPolicy} {limit : Option Nat} {mode : Mode} {prompt : String}
  {left retries : Nat}

/-- Attempts on a stream of endings from any request on. -/
theorem attempts_inTurn (hn : n ≤ retries) (hleft : retries ≤ n + left)
    (hbefore : ∀ i < retries, (endings i).isFinal = false)
    (hlast : (endings retries).isFinal = true ∨ retries = n + left)
    (htime : ∀ most, limit = some most → startOf p endings retries ≤ most) :
    (inTurn endings).attempts p limit mode prompt left n (startOf p endings n)
      (requests p endings limit mode prompt n) =
        ⟨(endings retries).delayed (startOf p endings retries),
          (List.range' n (retries - n)).map p.backoff,
          requests p endings limit mode prompt (retries + 1)⟩ := by
  induction left generalizing n with
  | zero =>
    obtain rfl : n = retries := by omega
    rw [attempts_of_last (complete_inTurn p endings limit mode prompt n) (.inr rfl),
      Nat.sub_self]
    rfl
  | succ left ih =>
    obtain heq | hlt := Nat.eq_or_lt_of_le hn
    · have hfinal : (endings n).isFinal = true := by
        obtain h | h := hlast
        · rw [heq]
          exact h
        · omega
      rw [attempts_of_last (complete_inTurn p endings limit mode prompt n) (.inl hfinal),
        ← heq, Nat.sub_self]
      rfl
    · obtain ⟨fault, hfault, hpassing⟩ := Ending.isFinal_eq_false_iff.mp (hbefore n hlt)
      have hcomplete := complete_inTurn p endings limit mode prompt n
      rw [hfault] at hcomplete
      have hnext : startOf p endings n + (endings n).duration + p.backoff n =
          startOf p endings (n + 1) := rfl
      have hintime : ∀ most, limit = some most →
          startOf p endings n + (endings n).duration + p.backoff n ≤ most := by
        intro most hmost
        rw [hnext]
        exact Nat.le_trans (startOf_le p endings hlt) (htime most hmost)
      have hlater := ih (Nat.succ_le_of_lt hlt) (by omega) (hlast.imp_right fun h => by omega)
      have hwaits : retries - n = (retries - (n + 1)) + 1 := by omega
      rw [attempts_of_passing hcomplete hpassing hintime, hnext, hlater, hwaits, List.range'_succ,
        List.map_cons]

theorem requests_none (p : RetryPolicy) (endings : Nat → Ending Completion) (mode : Mode)
    (prompt : String) (n : Nat) :
    requests p endings none mode prompt n = List.replicate n ⟨none, mode, prompt⟩ := by
  simp [requests]

/-- Attempts with all retries left. -/
theorem attempts_inTurn_of_start (hmost : retries ≤ p.maxRetries)
    (hbefore : ∀ i < retries, (endings i).isFinal = false)
    (hlast : (endings retries).isFinal = true ∨ retries = p.maxRetries)
    (htime : ∀ most, limit = some most → startOf p endings retries ≤ most) :
    (inTurn endings).attempts p limit mode prompt p.maxRetries 0 0 [] =
      ⟨(endings retries).delayed (startOf p endings retries), (List.range retries).map p.backoff,
        requests p endings limit mode prompt (retries + 1)⟩ := by
  have hall : (inTurn endings).attempts p limit mode prompt p.maxRetries 0 (startOf p endings 0)
      (requests p endings limit mode prompt 0) = _ :=
    attempts_inTurn (Nat.zero_le retries) (by omega) hbefore
      (hlast.imp_right fun h => by omega) htime
  rw [Nat.sub_zero, ← List.range_eq_range'] at hall
  exact hall

end InTurn

/-- Whatever the endings of its requests are, a gateway that repeats them makes one request, and one
more for each passing failure before the first other ending, as long as there are retries. All
requests have the same shape and prompt, and what comes of the last one is what comes of them all.
One wait lies between any two requests and none after the last one: where time is limited, each
request has less of it left by what the earlier requests and the waits after them have taken. -/
theorem asks_until_first_final (endings : Nat → Ending Completion) (p : RetryPolicy) (mode : Mode)
    (prompt : String) :
    let attempts (limit : Option Nat) :=
      (inTurn endings).attempts p limit mode prompt p.maxRetries 0 0 []
    ∃ retries : Nat, (retries : ℕ∞) = min (firstFinal endings) p.maxRetries ∧
      ((inTurn endings).retrying p).complete none mode prompt [] =
        ((endings retries).delayed (startOf p endings retries),
          List.replicate (retries + 1) ⟨none, mode, prompt⟩) ∧
      (attempts none).waits = (List.range retries).map p.backoff ∧
      ∀ most, startOf p endings retries ≤ most → attempts (some most) =
        ⟨(endings retries).delayed (startOf p endings retries), (List.range retries).map p.backoff,
          requests p endings (some most) mode prompt (retries + 1)⟩ := by
  intro attempts
  obtain ⟨retries, hmost, hretries, hbefore, hlast⟩ := exists_retries endings p.maxRetries
  have hunlimited : attempts none = _ := attempts_inTurn_of_start hmost hbefore hlast nofun
  refine ⟨retries, hretries, ?_, congrArg Attempts.waits hunlimited, fun most htime => ?_⟩
  · have hcomplete : ((inTurn endings).retrying p).complete none mode prompt [] =
        ((attempts none).ending, (attempts none).state) := rfl
    rw [hcomplete, hunlimited, requests_none]
  · refine attempts_inTurn_of_start hmost hbefore hlast fun limit hlimit => ?_
    rw [← Option.some.inj hlimit]
    exact htime

/-- Two refusals of a busy service, and then an answer. -/
def busyTwice : Nat → Ending Completion
  | 0 | 1 => .settled (.error (.service "gemini" "HTTP 503: overloaded")) 10
  | _ => .settled (.ok (.text "ok")) 5

/-- The answer comes with the third request, for which thirty milliseconds are left. -/
theorem busyTwice_asked_thrice :
    startOf ⟨5, 100, 150⟩ busyTwice 2 ≤ 300 ∧
    (inTurn busyTwice).attempts ⟨5, 100, 150⟩ (some 300) .text "Hi" 5 0 0 [] =
      ⟨.settled (.ok (.text "ok")) 275, [100, 150],
        [⟨some 300, .text, "Hi"⟩, ⟨some 190, .text, "Hi"⟩, ⟨some 30, .text, "Hi"⟩]⟩ := by
  have hfirst : firstFinal busyTwice = (2 : Nat) := firstFinal_eq rfl (by decide)
  have htime : startOf ⟨5, 100, 150⟩ busyTwice 2 ≤ 300 := by decide
  obtain ⟨retries, hretries, -, -, hlimited⟩ :=
    asks_until_first_final busyTwice ⟨5, 100, 150⟩ .text "Hi"
  have htwo : retries = 2 := by
    rw [hfirst, min_eq_left (Nat.cast_le.mpr (by decide)), Nat.cast_inj] at hretries
    exact hretries
  rw [htwo] at hlimited
  exact ⟨htime, hlimited 300 htime⟩

end Generative

end TriageFlow
