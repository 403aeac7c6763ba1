import TriageFlow.Json.Numeral
import TriageFlow.Json.Writer
import TriageFlow.Proofs.Words

/-!
The texts of JSON numbers. A numeral is read to its end wherever it is followed by something that
does not go on with it (`IsNumeral.exists_read`), and the text of every number is one
(`isNumeral_write`): the digits of a whole number, and the shortest decimal of a finite float in
either of its layouts. A whole number of 64 bits is what its text stands for (`reread_whole`).
-/

namespace TriageFlow.Json

open Decimal (Dec Binary digitsOf)
open Rule (IsDigits IsFraction IsSign IsExponent NoDigitAhead)

variable {cs rest : List Char} {c : Char} {n : Nat}

/-! ## Reading -/

/-- The digits before the point of a numeral; a zero stands alone. -/
def IsUnits (cs : List Char) : Prop := IsDigits cs ∧ ∀ tail, cs = '0' :: tail → tail = []

/-- A JSON numeral without sign: digits, a fraction and an exponent. -/
def IsMagnitude (cs : List Char) : Prop :=
  ∃ units fraction exponent, IsUnits units ∧ IsFraction fraction ∧ IsExponent exponent ∧
    cs = units ++ (fraction ++ exponent)

/-- A minus, or nothing. -/
def IsMinus (cs : List Char) : Prop := cs = [] ∨ cs = ['-']

/-- A JSON numeral: perhaps a minus, and a magnitude. -/
def IsNumeral (cs : List Char) : Prop :=
  ∃ minus magnitude, IsMinus minus ∧ IsMagnitude magnitude ∧ cs = minus ++ magnitude

/-- A text that does not go on with a numeral in front of it. -/
def PastNumeral (rest : List Char) : Prop :=
  ∀ c ∈ rest.head?, c.isDigit = false ∧ c ≠ '.' ∧ c ≠ 'e' ∧ c ≠ 'E'

/-- The value of a decimal digit. -/
def digitValue (c : Char) : Nat := c.toNat - '0'.toNat

theorem PastNumeral.noDigitAhead (h : PastNumeral rest) : NoDigitAhead rest :=
  fun c hc => (h c hc).1

theorem eq_zero_of_digitValue (hc : c.isDigit = true) (h : digitValue c = 0) : c = '0' := by
  have hlow := (Char.isDigit_iff_toNat.mp hc).1
  exact Char.toNat_inj.mp (Nat.le_antisymm (Nat.sub_eq_zero_iff_le.mp h) hlow)

theorem spanDigits_append (h : ∀ c ∈ cs, c.isDigit = true) (hrest : NoDigitAhead rest) :
    spanDigits (cs ++ rest) = (cs.map digitValue, rest) := by
  induction cs with
  | nil =>
    cases rest with
    | nil => rfl
    | cons c rest =>
      have hc : c.isDigit = false := hrest c rfl
      rw [List.nil_append, spanDigits, hc]
      rfl
  | cons c cs ih =>
    rw [List.cons_append, spanDigits, if_pos (h c List.mem_cons_self),
      ih fun d hd => h d (List.mem_cons_of_mem c hd)]
    rfl

namespace Numeral

theorem readUnits_append (h : IsUnits cs) (hrest : NoDigitAhead rest) :
    readUnits (cs ++ rest) = some (cs.map digitValue, rest) := by
  obtain ⟨⟨hne, hdigits⟩, hzero⟩ := h
  unfold readUnits
  rw [spanDigits_append hdigits hrest]
  match cs, hne with
  | [c], _ => cases hvalue : digitValue c <;> simp [hvalue]
  | c :: d :: cs, _ =>
    have hvalue : digitValue c ≠ 0 := by
      intro hvalue
      obtain rfl := eq_zero_of_digitValue (hdigits c List.mem_cons_self) hvalue
      cases hzero _ rfl
    obtain ⟨k, hk⟩ := Nat.exists_eq_succ_of_ne_zero hvalue
    simp [hk]

theorem exists_readFraction (h : IsFraction cs) :
    ∃ x, (cs = [] → x = none) ∧ ∀ rest, NoDigitAhead rest → (∀ c ∈ rest.head?, c ≠ '.') →
      readFraction (cs ++ rest) = some (x, rest) := by
  rcases h with rfl | ⟨digits, ⟨hne, hdigits⟩, rfl⟩
  · refine ⟨none, fun _ => rfl, fun rest _ hpoint => readFraction.eq_2 _ ?_⟩
    rintro tail rfl
    exact hpoint '.' rfl rfl
  · refine ⟨some (digits.map digitValue), nofun, fun rest hrest _ => ?_⟩
    obtain ⟨d, ds, rfl⟩ := List.exists_cons_of_ne_nil hne
    rw [List.cons_append, readFraction, spanDigits_append hdigits hrest]
    rfl

theorem readSign_append (h : IsSign cs) (hrest : IsDigits rest) (tail : List Char) :
    readSign (cs ++ (rest ++ tail)) = (cs == ['-'], rest ++ tail) := by
  rcases h with rfl | rfl | rfl
  · exact readSign.eq_3 _ (hrest.ne_cons (by decide)) (hrest.ne_cons (by decide))
  · rfl
  · rfl

theorem exists_readExponent (h : IsExponent cs) :
    ∃ x, (cs = [] → x = none) ∧ ∀ rest, PastNumeral rest →
      readExponent (cs ++ rest) = some (x, rest) := by
  rcases h with rfl | ⟨mark, sign, digits, hmark, hsign, hdigits, rfl⟩
  · refine ⟨none, fun _ => rfl, fun rest hrest => ?_⟩
    cases rest with
    | nil => rfl
    | cons c rest =>
      obtain ⟨-, -, he, hE⟩ := hrest c rfl
      rw [List.nil_append, readExponent, if_neg (by simp [he, hE])]
  · refine ⟨some (if sign == ['-'] then -(ofDigits (digits.map digitValue) : Int)
      else ofDigits (digits.map digitValue)), nofun, fun rest hrest => ?_⟩
    have hspan := spanDigits_append hdigits.2 hrest.noDigitAhead
    obtain ⟨d, ds, hds⟩ := List.exists_cons_of_ne_nil hdigits.1
    simp only [List.cons_append, List.append_assoc, readExponent, if_pos hmark,
      readSign_append hsign hdigits, hspan]
    rw [hds]
    rfl

theorem readMinus_append (h : IsMinus cs) (hrest : IsDigits rest) (tail : List Char) :
    readMinus (cs ++ (rest ++ tail)) = (cs == ['-'], rest ++ tail) := by
  rcases h with rfl | rfl
  · exact readMinus.eq_2 _ (hrest.ne_cons (by decide))
  · rfl

theorem read_append {minus units fraction exponent : List Char} {x : Option (List Nat)}
    {y : Option Int} (hminus : IsMinus minus) (hunits : IsUnits units)
    (hdigits : NoDigitAhead (fraction ++ (exponent ++ rest)))
    (hfraction : readFraction (fraction ++ (exponent ++ rest)) = some (x, exponent ++ rest))
    (hexponent : readExponent (exponent ++ rest) = some (y, rest)) :
    read (minus ++ (units ++ (fraction ++ (exponent ++ rest)))) =
      some (⟨minus == ['-'], units.map digitValue, x, y⟩, rest) := by
  simp only [read, readMinus_append hminus hunits.1, readUnits_append hunits hdigits, hfraction,
    hexponent, Option.bind_eq_bind, Option.bind_some]
  rfl

end Numeral

theorem IsExponent.head_ne_point (h : IsExponent cs) (hrest : PastNumeral rest) :
    ∀ c ∈ (cs ++ rest).head?, c ≠ '.' := by
  rcases h with rfl | ⟨mark, sign, digits, rfl | rfl, -, -, rfl⟩
  · exact fun c hc => (hrest c hc).2.1
  · rintro c ⟨⟩
    decide
  · rintro c ⟨⟩
    decide

theorem noDigitAhead_exponent (h : IsExponent cs) (hrest : PastNumeral rest) :
    NoDigitAhead (cs ++ rest) := by
  rcases h with rfl | ⟨mark, sign, digits, rfl | rfl, -, -, rfl⟩
  · exact hrest.noDigitAhead
  · exact Rule.noDigitAhead_cons (by decide)
  · exact Rule.noDigitAhead_cons (by decide)

theorem noDigitAhead_fraction (h : IsFraction cs) (hrest : NoDigitAhead rest) :
    NoDigitAhead (cs ++ rest) := by
  rcases h with rfl | ⟨digits, -, rfl⟩
  · exact hrest
  · exact Rule.noDigitAhead_cons (by decide)

/-- The characters that numerals are made of. -/
def isNumeralChar (c : Char) : Bool := c.isDigit || ['-', '+', '.', 'e', 'E'].contains c

theorem isNumeralChar_of_isDigits (h : IsDigits cs) : ∀ c ∈ cs, isNumeralChar c = true := by
  intro c hc
  rw [isNumeralChar, h.2 c hc, Bool.true_or]

theorem isNumeralChar_of_isFraction (h : IsFraction cs) : ∀ c ∈ cs, isNumeralChar c = true := by
  rcases h with rfl | ⟨digits, hdigits, rfl⟩
  · exact nofun
  · exact List.forall_mem_cons.mpr ⟨by decide, isNumeralChar_of_isDigits hdigits⟩

theorem isNumeralChar_of_isExponent (h : IsExponent cs) : ∀ c ∈ cs, isNumeralChar c = true := by
  rcases h with rfl | ⟨mark, sign, digits, hmark, hsign, hdigits, rfl⟩
  · exact nofun
  · have hmark : isNumeralChar mark = true := by rcases hmark with rfl | rfl <;> decide
    have hsign : ∀ c ∈ sign, isNumeralChar c = true := by
      rcases hsign with rfl | rfl | rfl
      · exact nofun
      · exact List.forall_mem_singleton.mpr (by decide)
      · exact List.forall_mem_singleton.mpr (by decide)
    exact List.forall_mem_cons.mpr
      ⟨hmark, List.forall_mem_append.mpr ⟨hsign, isNumeralChar_of_isDigits hdigits⟩⟩

theorem IsNumeral.isNumeralChar_of_mem (h : IsNumeral cs) : ∀ c ∈ cs, isNumeralChar c = true := by
  obtain ⟨minus, _, hminus, ⟨units, fraction, exponent, hunits, hfraction, hexponent, rfl⟩, rfl⟩ :=
    h
  have hminus : ∀ c ∈ minus, isNumeralChar c = true := by
    rcases hminus with rfl | rfl
    · exact nofun
    · exact List.forall_mem_singleton.mpr (by decide)
  simp only [List.forall_mem_append]
  exact ⟨hminus, isNumeralChar_of_isDigits hunits.1, isNumeralChar_of_isFraction hfraction,
    isNumeralChar_of_isExponent hexponent⟩

/-- A numeral is read alike whatever follows it, unless that goes on with it. -/
theorem IsNumeral.exists_read (h : IsNumeral cs) :
    ∃ x, ∀ rest, PastNumeral rest → Numeral.read (cs ++ rest) = some (x, rest) := by
  obtain ⟨minus, _, hminus, ⟨units, fraction, exponent, hunits, hfraction, hexponent, rfl⟩, rfl⟩ :=
    h
  obtain ⟨x, -, hx⟩ := Numeral.exists_readFraction hfraction
  obtain ⟨y, -, hy⟩ := Numeral.exists_readExponent hexponent
  refine ⟨⟨minus == ['-'], units.map digitValue, x, y⟩, fun rest hrest => ?_⟩
  have hahead := noDigitAhead_exponent hexponent hrest
  simp only [List.append_assoc]
  exact Numeral.read_append hminus hunits (noDigitAhead_fraction hfraction hahead)
    (hx _ hahead (IsExponent.head_ne_point hexponent hrest)) (hy rest hrest)

/-! ## Whole numbers -/

theorem isDigits_digitsOf (n : Nat) : IsDigits (digitsOf n) :=
  ⟨Nat.toDigits_ne_nil, fun _ => Nat.isDigit_of_mem_toDigits (by decide) (by decide)⟩

theorem ofDigits_digitsOf (n : Nat) : ofDigits ((digitsOf n).map digitValue) = n := by
  rw [ofDigits, List.foldl_map]
  exact (Nat.ofDigitChars_eq_foldl ..).symm.trans Nat.ofDigitChars_ten_toDigits

/-- Only zero is written with a zero in front. -/
theorem digitsOf_ne_zero_cons (hn : n ≠ 0) : ∀ tail, digitsOf n ≠ '0' :: tail := by
  induction n using Nat.strongRecOn with
  | ind n ih =>
    intro tail heq
    rw [digitsOf, Nat.toDigits_eq_if (by decide)] at heq
    split at heq
    · rename_i hlt
      obtain ⟨hdigit, rfl⟩ := List.cons.inj heq
      have hvalue := ofDigits_digitsOf n
      rw [digitsOf, Nat.toDigits_of_lt_base hlt, hdigit] at hvalue
      exact hn hvalue.symm
    · rename_i hge
      obtain ⟨d, ds, hds⟩ :=
        List.exists_cons_of_ne_nil (Nat.toDigits_ne_nil (n := n / 10) (b := 10))
      rw [hds, List.cons_append] at heq
      obtain ⟨rfl, -⟩ := List.cons.inj heq
      exact ih (n / 10) (by omega) (by omega) ds hds

theorem isUnits_digitsOf (n : Nat) : IsUnits (digitsOf n) := by
  refine ⟨isDigits_digitsOf n, fun tail heq => ?_⟩
  rcases Nat.eq_zero_or_pos n with rfl | hpos
  · exact (List.cons.inj heq).2.symm
  · exact absurd heq (digitsOf_ne_zero_cons (by omega) tail)

theorem isMagnitude_of_parts {units fraction exponent : List Char} (hunits : IsUnits units)
    (hfraction : IsFraction fraction) (hexponent : IsExponent exponent) :
    IsMagnitude (units ++ (fraction ++ exponent)) :=
  ⟨units, fraction, exponent, hunits, hfraction, hexponent, rfl⟩

theorem isMagnitude_of_units (h : IsUnits cs) : IsMagnitude cs := by
  have hparts := isMagnitude_of_parts h (.inl rfl) (.inl rfl)
  simpa only [List.append_nil] using hparts

theorem read_units {minus : List Char} (hminus : IsMinus minus) (h : IsUnits cs) :
    Numeral.read (minus ++ cs) = some (⟨minus == ['-'], cs.map digitValue, none, none⟩, []) := by
  have hread : Numeral.read (minus ++ (cs ++ ([] ++ ([] ++ [])))) = _ :=
    Numeral.read_append hminus h Rule.noDigitAhead_nil rfl rfl
  simpa only [List.append_nil] using hread

/-! ## Decimals -/

theorem isDigits_append (h : IsDigits cs) (hrest : ∀ c ∈ rest, c.isDigit = true) :
    IsDigits (cs ++ rest) :=
  ⟨fun hnil => h.1 (List.append_eq_nil_iff.mp hnil).1, fun c hc =>
    (List.mem_append.mp hc).elim (h.2 c) (hrest c)⟩

theorem isDigit_of_mem_zeros {k : Nat} : ∀ c ∈ List.replicate k '0', c.isDigit = true := by
  intro c hc
  rw [List.eq_of_mem_replicate hc]
  decide

/-- Digits in front of which no zero stands are the units of a numeral. -/
theorem isUnits_of_head {tail : List Char} (hn : n ≠ 0) (h : IsDigits cs)
    (hstarts : cs ++ tail = digitsOf n ++ rest) : IsUnits cs := by
  refine ⟨h, fun tail' heq => ?_⟩
  obtain ⟨d, ds, hds⟩ := List.exists_cons_of_ne_nil (isDigits_digitsOf n).1
  rw [heq, hds, List.cons_append, List.cons_append] at hstarts
  obtain ⟨rfl, -⟩ := List.cons.inj hstarts
  exact absurd hds (digitsOf_ne_zero_cons hn ds)

theorem isDigits_single (hc : c.isDigit = true) : IsDigits [c] :=
  ⟨List.cons_ne_nil c [], List.forall_mem_singleton.mpr hc⟩

theorem isUnits_single (hc : c.isDigit = true) : IsUnits [c] :=
  ⟨isDigits_single hc, fun _ heq => (List.cons.inj heq).2.symm⟩

/-- The fraction of a whole number. -/
theorem isFraction_zero : IsFraction ['.', '0'] :=
  .inr ⟨['0'], isDigits_single (by decide), rfl⟩

/-- The exponent that stands behind the digits of a decimal. -/
theorem isExponent_mark (lead : Int) :
    IsExponent (if lead < 0 then 'e' :: '-' :: digitsOf lead.natAbs
      else 'e' :: '+' :: digitsOf lead.natAbs) := by
  right
  split
  · exact ⟨'e', ['-'], _, .inl rfl, .inr (.inr rfl), isDigits_digitsOf _, rfl⟩
  · exact ⟨'e', ['+'], _, .inl rfl, .inr (.inl rfl), isDigits_digitsOf _, rfl⟩

/-- Zeros may follow the digits of a whole number. -/
theorem isMagnitude_whole (hn : n ≠ 0) (k : Nat) :
    IsMagnitude (digitsOf n ++ List.replicate k '0' ++ ['.', '0']) := by
  have hdigits := isDigits_append (isDigits_digitsOf n) (isDigit_of_mem_zeros (k := k))
  have hunits := isUnits_of_head hn hdigits (List.append_nil _)
  exact isMagnitude_of_parts hunits isFraction_zero (.inl rfl)

/-- The point may stand among the digits. -/
theorem isMagnitude_pointed {k : Nat} (hn : n ≠ 0) (hpos : 0 < k)
    (hlength : k < (digitsOf n).length) :
    IsMagnitude ((digitsOf n).take k ++ '.' :: (digitsOf n).drop k) := by
  have hdigits := isDigits_digitsOf n
  have hunits : IsDigits ((digitsOf n).take k) :=
    ⟨List.ne_nil_of_length_pos (by rw [List.length_take]; omega),
      fun c hc => hdigits.2 c (List.mem_of_mem_take hc)⟩
  have hfraction : IsDigits ((digitsOf n).drop k) :=
    ⟨List.ne_nil_of_length_pos (by rw [List.length_drop]; omega),
      fun c hc => hdigits.2 c (List.mem_of_mem_drop hc)⟩
  have hsplit : (digitsOf n).take k ++ (digitsOf n).drop k = digitsOf n ++ [] :=
    (List.take_append_drop k (digitsOf n)).trans (List.append_nil _).symm
  have hparts := isMagnitude_of_parts (isUnits_of_head hn hunits hsplit)
    (.inr ⟨_, hfraction, rfl⟩) (.inl rfl)
  rwa [List.append_nil] at hparts

/-- Zeros may stand between the point and the digits. -/
theorem isMagnitude_small (n k : Nat) :
    IsMagnitude ('0' :: '.' :: (List.replicate k '0' ++ digitsOf n)) := by
  have hdigits := isDigits_digitsOf n
  have hfraction : IsDigits (List.replicate k '0' ++ digitsOf n) :=
    ⟨fun hnil => hdigits.1 (List.append_eq_nil_iff.mp hnil).2,
      List.forall_mem_append.mpr ⟨isDigit_of_mem_zeros, hdigits.2⟩⟩
  have hparts := isMagnitude_of_parts (isUnits_single (c := '0') (by decide))
    (.inr ⟨_, hfraction, rfl⟩) (.inl rfl)
  rwa [List.append_nil] at hparts

/-- One digit may stand before the point, and an exponent behind the others. -/
theorem isMagnitude_scientific {digits mark : List Char} :
    IsDigits digits → IsExponent mark →
    IsMagnitude (match digits with
      | [] => mark
      | [c] => c :: mark
      | c :: rest => c :: '.' :: (rest ++ mark)) := by
  intro hdigits hmark
  match digits with
  | [] => exact absurd rfl hdigits.1
  | [c] =>
    exact isMagnitude_of_parts (isUnits_single (hdigits.2 c List.mem_cons_self)) (.inl rfl) hmark
  | c :: d :: rest =>
    have hfraction : IsDigits (d :: rest) :=
      ⟨List.cons_ne_nil d rest, fun e he => hdigits.2 e (List.mem_cons_of_mem c he)⟩
    exact isMagnitude_of_parts (isUnits_single (hdigits.2 c List.mem_cons_self))
      (.inr ⟨_, hfraction, rfl⟩) hmark

/-- The text of a decimal that is not zero is a magnitude in each of its layouts. -/
theorem isMagnitude_layout {d : Dec} (hd : d.digits ≠ 0) : IsMagnitude d.layout := by
  unfold Dec.layout
  dsimp only
  split
  · split
    · exact isMagnitude_whole hd d.exponent.toNat
    · split
      · exact isMagnitude_pointed hd (Nat.succ_pos _) (by omega)
      · exact isMagnitude_small d.digits _
  · exact isMagnitude_scientific (isDigits_digitsOf d.digits) (isExponent_mark _)

/-! ## Floats -/

theorem digits_ne_zero_of_readsBack {x : Binary} {d : Dec} (hx : x.mantissa ≠ 0)
    (h : x.readsBack d = true) : d.digits ≠ 0 := by
  intro hzero
  have hlt (low : Nat) (hlow : 0 < low) :
      Decimal.compareScaled d.digits d.exponent low (x.exponent - 2) = .lt := by
    rw [Decimal.compareScaled, hzero, Nat.zero_mul, Nat.zero_mul, Nat.compare_eq_lt]
    have htwo : 0 < Nat.pow 2 (x.exponent - 2).toNat := Nat.pow_pos (by decide)
    have hten : 0 < Nat.pow 10 (-d.exponent).toNat := Nat.pow_pos (by decide)
    exact Nat.mul_pos (Nat.mul_pos hlow htwo) hten
  unfold Binary.readsBack at h
  dsimp only at h
  rw [hlt _ (by split <;> omega)] at h
  simp at h

theorem shortest_digits_ne_zero {x : Binary} (hx : x.mantissa ≠ 0) : x.shortest.digits ≠ 0 := by
  unfold Binary.shortest
  cases hsearch : x.search 20 x.bound with
  | some d => exact digits_ne_zero_of_readsBack hx (Decimal.Binary.readsBack_of_search hsearch)
  | none =>
    have htwo (k : Nat) : Nat.pow 2 k ≠ 0 := Nat.pos_iff_ne_zero.mp (Nat.pow_pos (by decide))
    have hfive (k : Nat) : Nat.pow 5 k ≠ 0 := Nat.pos_iff_ne_zero.mp (Nat.pow_pos (by decide))
    rw [Option.getD_none, Binary.exact]
    split
    · exact Nat.mul_ne_zero hx (htwo _)
    · exact Nat.mul_ne_zero hx (hfive _)

theorem strip_digits_ne_zero {d : Dec} (hd : d.digits ≠ 0) (fuel : Nat) :
    (d.strip fuel).digits ≠ 0 := by
  induction fuel generalizing d with
  | zero => exact hd
  | succ fuel ih =>
    rw [Dec.strip]
    split
    · exact ih (by dsimp only; omega)
    · exact hd

theorem isNumeral_render (x : Binary) (negative : Bool) : IsNumeral (x.render negative) := by
  have hminus : IsMinus (if negative then ['-'] else []) := by
    cases negative
    · exact .inl rfl
    · exact .inr rfl
  unfold Binary.render
  dsimp only
  split
  · have hzero := isMagnitude_of_parts (isUnits_single (c := '0') (by decide)) isFraction_zero
      (.inl rfl)
    exact ⟨_, _, hminus, hzero, rfl⟩
  · rename_i hx
    exact ⟨_, _, hminus, isMagnitude_layout (strip_digits_ne_zero (shortest_digits_ne_zero hx) 20),
      rfl⟩

/-! ## Numbers -/

namespace Number

/-- A number that a value can hold: a whole number of 64 bits, with or without a sign, or a finite
float. -/
def IsStored : Number → Prop
  | whole n => -(Nat.pow 2 63 : Int) ≤ n ∧ n ≤ Numeral.greatest
  | real x => x.isFinite = true

/-- The number that the text of a number stands for. -/
def reread (n : Number) : Option Number :=
  (Numeral.read n.write).bind fun x => x.1.toNumber?

theorem IsStored.isFinite {n : Number} (h : n.IsStored) : ∀ x, n = real x → x.isFinite = true := by
  rintro x rfl
  exact h

theorem isNumeral_write {n : Number} (h : ∀ x, n = real x → x.isFinite = true) :
    IsNumeral n.write := by
  match n with
  | whole (.ofNat n) => exact ⟨[], _, .inl rfl, isMagnitude_of_units (isUnits_digitsOf n), rfl⟩
  | whole (.negSucc n) =>
    exact ⟨['-'], _, .inr rfl, isMagnitude_of_units (isUnits_digitsOf (n + 1)), rfl⟩
  | real x =>
    have hwrite : (real x).write = Decimal.renderFloat x := if_pos (h x rfl)
    rw [hwrite]
    exact isNumeral_render ..

/-- The text of a number is a numeral, unless the number is a float that is not finite. -/
theorem write_cases (n : Number) : IsNumeral n.write ∨ n.write = ['n', 'u', 'l', 'l'] := by
  cases n with
  | whole n => exact .inl (isNumeral_write nofun)
  | real x =>
    by_cases hx : x.isFinite = true
    · refine .inl (isNumeral_write ?_)
      rintro y ⟨⟩
      exact hx
    · exact .inr (if_neg hx)

/-- What the digits of a natural number of 64 bits stand for, with or without a minus. -/
theorem toNumber?_digitsOf {n : Nat} (h : n ≤ Numeral.greatest) (negative : Bool) :
    Numeral.toNumber? ⟨negative, (digitsOf n).map digitValue, none, none⟩ =
      if negative then
        if n = 0 ∨ Nat.pow 2 63 < n then some (.real (-Float.ofNat n)) else some (.whole (-n))
      else some (.whole n) := by
  simp only [Numeral.toNumber?, ofDigits_digitsOf, Option.isNone_none, h, and_self, if_true]

/-- A whole number is what its text stands for. -/
theorem reread_whole {n : Int} (h : (whole n).IsStored) : (whole n).reread = some (whole n) := by
  obtain ⟨hlow, hhigh⟩ := h
  cases n with
  | ofNat n =>
    have hread := read_units (.inl rfl) (isUnits_digitsOf n)
    have hle : n ≤ Numeral.greatest := Int.ofNat_le.mp hhigh
    rw [reread, write, ← List.nil_append (digitsOf n), hread, Option.bind_some,
      toNumber?_digitsOf hle]
    rfl
  | negSucc n =>
    have hread := read_units (.inr rfl) (isUnits_digitsOf (n + 1))
    have hfits : n + 1 ≤ Nat.pow 2 63 := by omega
    have hle : n + 1 ≤ Numeral.greatest := Nat.le_trans hfits (by decide)
    have hsmall : ¬(n + 1 = 0 ∨ Nat.pow 2 63 < n + 1) := by omega
    rw [reread, write, ← List.singleton_append, hread, Option.bind_some, toNumber?_digitsOf hle]
    exact if_neg hsmall

end Number

end TriageFlow.Json
