import TriageFlow.Engine.ModelOutput
import TriageFlow.Proofs.Numerals
import TriageFlow.Proofs.Values

/-!
What becomes of a JSON text when code fences are taken out of it. Erasing a pattern leaves exactly
the texts alone that it does not occur in (`Text.erase_eq_self_iff`). A fence starts with a backtick
and has no character that a JSON string escapes, so it can stand nowhere in the text of a value but
inside one of its strings, where it is erased as from the string itself (`withoutFences_write`).
-/

namespace TriageFlow

/-! ## Erasing -/

namespace Text

variable {pattern cs rest : List Char}

theorem eraseFrom_sublist (pattern : List Char) (k : Nat) (cs : List Char) :
    (eraseFrom pattern k cs).Sublist cs := by
  fun_induction eraseFrom pattern k cs with
  | case1 => exact List.Sublist.refl _
  | case2 k c cs ih => exact ih.cons c
  | case3 c cs h ih => exact ih.cons c
  | case4 c cs h ih => exact ih.cons_cons c

theorem erase_sublist (pattern cs : List Char) : (erase pattern cs).Sublist cs :=
  eraseFrom_sublist pattern 0 cs

/-- A pattern leaves a text alone exactly if it does not occur in it. -/
theorem erase_eq_self_iff (hpattern : pattern ≠ []) :
    erase pattern cs = cs ↔ ¬pattern <:+: cs := by
  unfold erase
  induction cs with
  | nil => simp [eraseFrom, hpattern]
  | cons c cs ih =>
    rw [eraseFrom, List.infix_cons_iff, not_or]
    split
    · rename_i hstarts
      have hle := (eraseFrom_sublist pattern (pattern.length - 1) cs).length_le
      refine ⟨fun h => ?_, fun h => absurd (List.isPrefixOf_iff_prefix.mp hstarts) h.1⟩
      rw [h, List.length_cons] at hle
      omega
    · rename_i hstarts
      rw [List.cons.injEq, ih]
      exact ⟨fun h => ⟨mt List.isPrefixOf_iff_prefix.mpr hstarts, h.2⟩, fun h => ⟨rfl, h.2⟩⟩

/-- Where the first character of a pattern does not occur, the pattern does not. -/
theorem erase_append_of_not_mem {f : Char} (h : f ∉ cs) :
    erase (f :: pattern) (cs ++ rest) = cs ++ erase (f :: pattern) rest := by
  induction cs with
  | nil => rfl
  | cons c cs ih =>
    have hne : f ≠ c := fun heq => h (heq ▸ List.mem_cons_self)
    have hstarts : (f :: pattern).isPrefixOf (c :: (cs ++ rest)) = false := by
      rw [List.isPrefixOf_cons_cons, beq_false_of_ne hne, Bool.false_and]
    rw [List.cons_append, erase, eraseFrom, hstarts, if_neg Bool.false_ne_true]
    exact congrArg (c :: ·) (ih fun hmem => h (List.mem_cons_of_mem c hmem))

end Text

namespace Json

/-! ## Erasing inside a string -/

/-- A pattern that starts with a backtick and that strings hold as it stands. -/
structure IsFence (pattern : List Char) : Prop where
  head : pattern.head? = some '\x60'
  plain : ∀ c ∈ pattern, escape c = [c]

variable {pattern rest : List Char} {c : Char}

theorem IsFence.exists_cons (h : IsFence pattern) : ∃ tail, pattern = '\x60' :: tail := by
  obtain ⟨head, -⟩ := h
  cases pattern with
  | nil => cases head
  | cons f tail =>
    obtain rfl := Option.some.inj head
    exact ⟨tail, rfl⟩

/-- A text without backticks holds no fence. -/
theorem IsFence.erase_append (h : IsFence pattern) {cs : List Char} (hcs : '\x60' ∉ cs) :
    Text.erase pattern (cs ++ rest) = cs ++ Text.erase pattern rest := by
  obtain ⟨tail, rfl⟩ := h.exists_cons
  exact Text.erase_append_of_not_mem hcs

theorem IsFence.erase_cons (h : IsFence pattern) (hc : '\x60' ≠ c) (rest : List Char) :
    Text.erase pattern (c :: rest) = c :: Text.erase pattern rest :=
  h.erase_append fun hmem => hc (List.mem_singleton.mp hmem)

/-- A character stands as it is in a string, or for it stands a backslash and no backtick. -/
theorem escape_cases (c : Char) :
    escape c = [c] ∨ ∃ tail, escape c = '\\' :: tail ∧ '\x60' ∉ tail := by
  unfold escape
  split
  · exact .inr ⟨_, rfl, by decide⟩
  · exact .inr ⟨_, rfl, by decide⟩
  · exact .inr ⟨_, rfl, by decide⟩
  · exact .inr ⟨_, rfl, by decide⟩
  · exact .inr ⟨_, rfl, by decide⟩
  · exact .inr ⟨_, rfl, by decide⟩
  · exact .inr ⟨_, rfl, by decide⟩
  · split
    · rename_i hc
      have hdigits : ∀ n < 0x20,
          '\x60' ∉ ['u', '0', '0', hexDigit (n / 16), hexDigit (n % 16)] := by
        decide
      exact .inr ⟨_, rfl, hdigits c.toNat hc⟩
    · exact .inl rfl

theorem isPrefixOf_flatMap_escape (h : ∀ c ∈ pattern, escape c = [c]) (cs rest : List Char) :
    pattern.isPrefixOf (cs.flatMap escape ++ '"' :: rest) = pattern.isPrefixOf cs := by
  induction pattern generalizing cs with
  | nil => simp only [List.isPrefixOf_nil_left]
  | cons f pattern ih =>
    have hf := h f List.mem_cons_self
    have hquote : f ≠ '"' := by
      rintro rfl
      exact absurd hf (by decide)
    have hbackslash : f ≠ '\\' := by
      rintro rfl
      exact absurd hf (by decide)
    cases cs with
    | nil =>
      rw [List.flatMap_nil, List.nil_append, List.isPrefixOf_cons_cons, beq_false_of_ne hquote,
        Bool.false_and]
      rfl
    | cons c cs =>
      rw [List.flatMap_cons]
      rcases escape_cases c with hc | ⟨tail, hc, -⟩
      · rw [hc, List.append_assoc, List.singleton_append, List.isPrefixOf_cons_cons,
          List.isPrefixOf_cons_cons, ih fun d hd => h d (List.mem_cons_of_mem f hd)]
      · have hne : f ≠ c := by
          rintro rfl
          rw [hc] at hf
          exact hbackslash (List.cons.inj hf).1.symm
        rw [hc, List.cons_append, List.cons_append, List.isPrefixOf_cons_cons,
          List.isPrefixOf_cons_cons, beq_false_of_ne hne, beq_false_of_ne hbackslash,
          Bool.false_and, Bool.false_and]

/-- A fence that does not start at a character leaves its escape alone. -/
theorem IsFence.erase_escape (h : IsFence pattern)
    (hstarts : pattern.isPrefixOf (escape c ++ rest) = false) :
    Text.erase pattern (escape c ++ rest) = escape c ++ Text.erase pattern rest := by
  rcases escape_cases c with hc | ⟨tail, hc, htail⟩
  · rw [hc, List.singleton_append] at hstarts ⊢
    rw [Text.erase, Text.eraseFrom, hstarts, if_neg Bool.false_ne_true]
    rfl
  · refine h.erase_append ?_
    rw [hc, List.mem_cons, not_or]
    exact ⟨by decide, htail⟩

/-- Inside a string a fence is erased as from what the string holds. -/
theorem eraseFrom_flatMap_escape (h : IsFence pattern) (k : Nat) (cs rest : List Char)
    (hk : k ≤ cs.length) (hplain : ∀ c ∈ cs.take k, escape c = [c]) :
    Text.eraseFrom pattern k (cs.flatMap escape ++ '"' :: rest) =
      (Text.eraseFrom pattern k cs).flatMap escape ++ '"' :: Text.erase pattern rest := by
  induction cs generalizing k with
  | nil =>
    obtain rfl : k = 0 := Nat.le_zero.mp hk
    exact h.erase_cons (by decide) rest
  | cons c cs ih =>
    cases k with
    | succ k =>
      have hc : escape c = [c] := hplain c List.mem_cons_self
      rw [List.flatMap_cons, hc, List.append_assoc, List.singleton_append, Text.eraseFrom,
        Text.eraseFrom]
      exact ih k (Nat.le_of_succ_le_succ hk) fun d hd => hplain d (List.mem_cons_of_mem c hd)
    | zero =>
      -- the fence starts in the escaped text where it starts in the string
      have hsame := isPrefixOf_flatMap_escape h.plain (c :: cs) rest
      rw [List.flatMap_cons, List.append_assoc] at hsame ⊢
      by_cases hstarts : pattern.isPrefixOf (c :: cs) = true
      · obtain ⟨tail, rfl⟩ := h.exists_cons
        obtain ⟨rfl, after, rfl⟩ : '\x60' = c ∧ ∃ after, tail ++ after = cs :=
          List.cons_prefix_cons.mp (List.isPrefixOf_iff_prefix.mp hstarts)
        rw [hstarts, h.plain _ List.mem_cons_self, List.singleton_append] at hsame
        rw [h.plain _ List.mem_cons_self, List.singleton_append, Text.eraseFrom, if_pos hsame,
          Text.eraseFrom, if_pos hstarts, List.length_cons, Nat.add_sub_cancel]
        refine ih tail.length (by simp) fun d hd => ?_
        rw [List.take_left] at hd
        exact h.plain d (List.mem_cons_of_mem _ hd)
      · rw [Bool.not_eq_true] at hstarts
        rw [hstarts] at hsame
        have hrest := ih 0 (Nat.zero_le _) (by simp)
        rw [Text.eraseFrom, hstarts, if_neg Bool.false_ne_true, List.flatMap_cons,
          List.append_assoc, ← hrest]
        exact h.erase_escape hsame

/-- A string without a pattern. -/
def eraseString (pattern : List Char) (s : String) : String :=
  String.ofList (Text.erase pattern s.toList)

theorem erase_quote (h : IsFence pattern) (s : String) (rest : List Char) :
    Text.erase pattern (quote s ++ rest) =
      quote (eraseString pattern s) ++ Text.erase pattern rest := by
  have hstring := eraseFrom_flatMap_escape h 0 s.toList rest (Nat.zero_le _) (by simp)
  have hopen := h.erase_cons (c := '"') (by decide) (s.toList.flatMap escape ++ '"' :: rest)
  simp only [quote, eraseString, String.toList_ofList, List.cons_append, List.append_assoc,
    List.nil_append]
  rw [hopen]
  exact congrArg ('"' :: ·) hstring

/-! ## Erasing in the text of a value -/

namespace Value

theorem not_mem_write_number (n : Number) : '\x60' ∉ n.write := by
  intro hmem
  rcases n.write_cases with h | h
  · exact absurd (h.isNumeralChar_of_mem _ hmem) (by decide)
  · rw [h] at hmem
    exact absurd hmem (by decide)

mutual

/-- In the text of a value a fence is erased as from each of its strings. -/
theorem erase_write (h : IsFence pattern) : (v : Value) → (rest : List Char) →
    Text.erase pattern (v.write ++ rest) =
      (v.mapStrings (eraseString pattern)).write ++ Text.erase pattern rest
  | null, _ => h.erase_append (by decide)
  | bool true, _ => h.erase_append (by decide)
  | bool false, _ => h.erase_append (by decide)
  | number n, _ => h.erase_append (not_mem_write_number n)
  | string s, rest => erase_quote h s rest
  | array [], _ => h.erase_append (by decide)
  | array (v :: items), rest => by
    have hv := erase_write h v (writeItems items ++ rest)
    have hitems := erase_writeItems h items rest
    simp only [mapStrings, mapItems, write, List.cons_append, List.append_assoc]
    rw [h.erase_cons (by decide), hv, hitems]
  | object [], _ => h.erase_append (by decide)
  | object ((k, v) :: fields), rest => by
    have hk := erase_quote h k (':' :: (v.write ++ (writeFields fields ++ rest)))
    have hv := erase_write h v (writeFields fields ++ rest)
    have hfields := erase_writeFields h fields rest
    simp only [mapStrings, mapFields, write, List.cons_append, List.append_assoc]
    rw [h.erase_cons (by decide), hk, h.erase_cons (by decide), hv, hfields]

theorem erase_writeItems (h : IsFence pattern) : (items : List Value) → (rest : List Char) →
    Text.erase pattern (writeItems items ++ rest) =
      writeItems (mapItems (eraseString pattern) items) ++ Text.erase pattern rest
  | [], _ => h.erase_append (by decide)
  | v :: items, rest => by
    have hv := erase_write h v (writeItems items ++ rest)
    have hitems := erase_writeItems h items rest
    simp only [mapItems, writeItems, List.cons_append, List.append_assoc]
    rw [h.erase_cons (by decide), hv, hitems]

theorem erase_writeFields (h : IsFence pattern) :
    (fields : List (String × Value)) → (rest : List Char) →
    Text.erase pattern (writeFields fields ++ rest) =
      writeFields (mapFields (eraseString pattern) fields) ++ Text.erase pattern rest
  | [], _ => h.erase_append (by decide)
  | (k, v) :: fields, rest => by
    have hk := erase_quote h k (':' :: (v.write ++ (writeFields fields ++ rest)))
    have hv := erase_write h v (writeFields fields ++ rest)
    have hfields := erase_writeFields h fields rest
    simp only [mapFields, writeFields, List.cons_append, List.append_assoc]
    rw [h.erase_cons (by decide), hk, h.erase_cons (by decide), hv, hfields]

end

end Value

end Json

/-! ## Both fences -/

open Json

theorem isFence_of_all {pattern : List Char} (hhead : pattern.head? = some '\x60')
    (hplain : (pattern.all fun c => escape c == [c]) = true) : IsFence pattern :=
  ⟨hhead, fun c hc => eq_of_beq (List.all_eq_true.mp hplain c hc)⟩

theorem isFence_jsonFence : IsFence jsonFence := isFence_of_all rfl (by decide)

theorem isFence_fence : IsFence fence := isFence_of_all rfl (by decide)

/-- A string without code fences. -/
def unfenced (s : String) : String := String.ofList (withoutFences s.toList)

/-- In the text of a value the fences are taken out as from each of its strings. -/
theorem withoutFences_write (v : Value) :
    withoutFences v.write = (v.mapStrings unfenced).write := by
  have hcomp : unfenced = eraseString fence ∘ eraseString jsonFence := by
    funext s
    simp only [unfenced, withoutFences, eraseString, Function.comp, String.toList_ofList]
  have hjson := Value.erase_write isFence_jsonFence v []
  have hfence := Value.erase_write isFence_fence (v.mapStrings (eraseString jsonFence)) []
  have hnil (pattern : List Char) : Text.erase pattern [] = [] := rfl
  rw [List.append_nil, hnil, List.append_nil] at hjson hfence
  rw [withoutFences, hjson, hfence, Value.mapStrings_mapStrings, hcomp]

theorem withoutFences_sublist (cs : List Char) : (withoutFences cs).Sublist cs :=
  (Text.erase_sublist fence _).trans (Text.erase_sublist jsonFence cs)

/-- A text is left alone exactly if no fence stands in it. -/
theorem withoutFences_eq_self_iff {cs : List Char} : withoutFences cs = cs ↔ ¬fence <:+: cs := by
  have hfence : fence ≠ [] := List.cons_ne_nil _ _
  have hjson : jsonFence ≠ [] := List.cons_ne_nil _ _
  constructor
  · intro h
    have hshort := (Text.erase_sublist fence (Text.erase jsonFence cs)).length_le
    rw [← withoutFences, h] at hshort
    have hsame := (Text.erase_sublist jsonFence cs).eq_of_length_le hshort
    rw [withoutFences, hsame] at h
    exact (Text.erase_eq_self_iff hfence).mp h
  · intro h
    have hstarts : fence <:+: jsonFence := ⟨[], ['j', 's', 'o', 'n'], rfl⟩
    have hsame := (Text.erase_eq_self_iff hjson).mpr (mt hstarts.trans h)
    rw [withoutFences, hsame]
    exact (Text.erase_eq_self_iff hfence).mpr h

theorem unfenced_eq_self_iff {s : String} : unfenced s = s ↔ ¬fence <:+: s.toList := by
  rw [← withoutFences_eq_self_iff, unfenced, ← String.toList_inj, String.toList_ofList]

theorem length_unfenced_le (s : String) : (unfenced s).length ≤ s.length := by
  rw [unfenced, String.length_ofList, ← String.length_toList]
  exact (withoutFences_sublist s.toList).length_le

/-- Only a string without fences keeps its length. -/
theorem unfenced_eq_self_of_length {s : String} (h : s.length ≤ (unfenced s).length) :
    unfenced s = s := by
  rw [unfenced, String.length_ofList, ← String.length_toList] at h
  rw [unfenced, (withoutFences_sublist s.toList).eq_of_length_le h, String.ofList_toList]

end TriageFlow
