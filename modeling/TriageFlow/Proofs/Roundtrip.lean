import Mathlib.Data.List.Forall2
import TriageFlow.Json.Reader
import TriageFlow.Proofs.Numerals
import TriageFlow.Proofs.Values

/-!
Reading back the compact text of a JSON value. Each character of a string is read back from its
escape, each number as what its text stands for, and each container entry by entry, as long as it
nests no deeper than the reader goes. So the text of a value is read as the value with its numbers
read again and its fields put in order (`Value.read?_write`).
-/

namespace TriageFlow.Json

variable {cs rest : List Char} {c : Char}

/-! ## Strings -/

theorem hexUnit?_control : ∀ n < 0x20,
    hexUnit? '0' '0' (hexDigit (n / 16)) (hexDigit (n % 16)) = some n := by
  decide

theorem readChars_escape (c : Char) (tail : List Char) :
    readChars (escape c ++ tail) = (readChars tail).map fun (cs, rest) => (c :: cs, rest) := by
  unfold escape
  split
  · rfl
  · rfl
  · rfl
  · rfl
  · rfl
  · rfl
  · rfl
  · rename_i hquote hbackslash _ _ _ _ _
    split
    · rename_i hcontrol
      have hunit := hexUnit?_control c.toNat hcontrol
      have hhigh : isHighSurrogate c.toNat = false := by
        simp [isHighSurrogate]
        omega
      have hlow : isLowSurrogate c.toNat = false := by
        simp [isLowSurrogate]
        omega
      simp only [List.cons_append, List.nil_append, readChars, hunit, hhigh, hlow,
        Bool.false_eq_true, if_false, Char.ofNat_toNat]
    · rename_i hcontrol
      have hplain : ¬(c.toNat < 0x20 ∨ c = '\\') := not_or.mpr ⟨hcontrol, hbackslash⟩
      rw [List.singleton_append, readChars.eq_5 c tail hquote
        (fun _ _ _ _ _ h => absurd h hbackslash) (fun _ _ h => absurd h hbackslash), if_neg hplain]

theorem readChars_flatMap_escape (cs rest : List Char) :
    readChars (cs.flatMap escape ++ '"' :: rest) = some (cs, rest) := by
  induction cs with
  | nil => rfl
  | cons c cs ih =>
    rw [List.flatMap_cons, List.append_assoc, readChars_escape, ih]
    rfl

theorem readString_quote (s : String) (rest : List Char) :
    readString (quote s ++ rest) = some (s, rest) := by
  rw [quote, List.cons_append, List.append_assoc, List.singleton_append, readString,
    readChars_flatMap_escape, Option.map_some]
  exact congrArg (fun s => some (s, rest)) String.ofList_toList

/-! ## Entries -/

section Entries

variable {α β : Type} {close : Char} {entry : List Char → Option (α × List Char)}
  {text : β → List Char} {result : β → Option α} {x : β} {xs : List β}

/-- A text that is read as one entry of a container, wherever an entry may end. -/
structure IsEntry (close : Char) (entry : List Char → Option (α × List Char)) (text : List Char)
    (result : Option α) : Prop where
  head : ∃ c tail, text = c :: tail ∧ isBlank c = false ∧ c ≠ close
  read : ∀ rest, PastNumeral rest → entry (text ++ rest) = result.map fun x => (x, rest)

/-- Texts with commas between them. -/
def commaSeparated : List (List Char) → List Char
  | [] => []
  | text :: texts => text ++ texts.flatMap (',' :: ·)

theorem skipBlanks_cons (h : isBlank c = false) (rest : List Char) :
    skipBlanks (c :: rest) = c :: rest := by
  rw [skipBlanks, List.dropWhile_cons, h]
  rfl

theorem IsEntry.skipBlanks_append {text : List Char} {result : Option α}
    (h : IsEntry close entry text result) (rest : List Char) :
    skipBlanks (text ++ rest) = text ++ rest := by
  obtain ⟨c, tail, rfl, hc, -⟩ := h.head
  exact skipBlanks_cons hc (tail ++ rest)

theorem pastNumeral_comma (rest : List Char) : PastNumeral (',' :: rest) := by
  rintro c ⟨⟩
  decide

/-- A character that can close a container. -/
structure IsClose (close : Char) : Prop where
  isBlank : isBlank close = false
  comma_ne : ',' ≠ close
  pastNumeral : ∀ rest, PastNumeral (close :: rest)

theorem isClose_bracket : IsClose ']' := ⟨by decide, by decide, by rintro rest c ⟨⟩; decide⟩

theorem isClose_brace : IsClose '}' := ⟨by decide, by decide, by rintro rest c ⟨⟩; decide⟩

theorem length_le_length_commas (texts : List (List Char)) :
    texts.length ≤ (texts.flatMap (',' :: ·)).length := by
  induction texts with
  | nil => exact Nat.le_refl 0
  | cons text texts ih =>
    rw [List.flatMap_cons, List.length_append, List.length_cons, List.length_cons]
    omega

/-- Entries with commas between them are read one by one. -/
theorem readEntries_append (hclose : IsClose close)
    (h : ∀ y ∈ x :: xs, IsEntry close entry (text y) (result y)) (rest : List Char) (fuel : Nat)
    (hfuel : xs.length < fuel) :
    readEntries close entry fuel (commaSeparated ((x :: xs).map text) ++ close :: rest) =
      ((x :: xs).mapM result).map fun xs => (xs, rest) := by
  induction xs generalizing x fuel with
  | nil =>
    obtain ⟨fuel, rfl⟩ := Nat.exists_eq_succ_of_ne_zero (Nat.ne_zero_of_lt hfuel)
    have hx := h x List.mem_cons_self
    have htext : commaSeparated ([x].map text) = text x := List.append_nil _
    rw [htext, readEntries, hx.skipBlanks_append, hx.read _ (hclose.pastNumeral rest),
      List.mapM_cons]
    cases result x with
    | none => rfl
    | some a =>
      simp only [Option.map_some, skipBlanks_cons hclose.isBlank, if_true]
      rfl
  | cons y ys ih =>
    obtain ⟨fuel, rfl⟩ := Nat.exists_eq_succ_of_ne_zero (Nat.ne_zero_of_lt hfuel)
    have hx := h x List.mem_cons_self
    have hys := ih (fun z hz => h z (List.mem_cons_of_mem x hz)) fuel
      (Nat.lt_of_succ_lt_succ hfuel)
    have htext : commaSeparated ((x :: y :: ys).map text) ++ close :: rest =
        text x ++ ',' :: (commaSeparated ((y :: ys).map text) ++ close :: rest) := by
      simp only [commaSeparated, List.map_cons, List.flatMap_cons, List.append_assoc,
        List.cons_append]
    rw [htext, readEntries, hx.skipBlanks_append, hx.read _ (pastNumeral_comma _), List.mapM_cons]
    cases result x with
    | none => rfl
    | some a =>
      simp only [Option.map_some, skipBlanks_cons (c := ',') rfl, if_neg hclose.comma_ne,
        if_true, hys]
      cases (y :: ys).mapM result <;> rfl

/-- So are the entries of a container. -/
theorem readContainer_append (hclose : IsClose close)
    (h : ∀ y ∈ xs, IsEntry close entry (text y) (result y)) (rest : List Char) :
    readContainer close entry (commaSeparated (xs.map text) ++ close :: rest) =
      (xs.mapM result).map fun xs => (xs, rest) := by
  cases xs with
  | nil =>
    rw [List.map_nil, commaSeparated, List.nil_append, readContainer,
      skipBlanks_cons hclose.isBlank]
    exact if_pos rfl
  | cons x xs =>
    obtain ⟨c, tail, hx, hblank, hne⟩ := (h x List.mem_cons_self).head
    have hlength := length_le_length_commas (xs.map text)
    have hread := readEntries_append hclose h rest
      (commaSeparated ((x :: xs).map text) ++ close :: rest).length (by
        rw [List.length_map] at hlength
        simp only [commaSeparated, List.map_cons, List.length_append, List.length_cons]
        omega)
    rw [← hread]
    simp only [commaSeparated, List.map_cons, hx, List.cons_append, readContainer,
      skipBlanks_cons hblank, if_neg hne]

end Entries

/-! ## Numbers -/

theorem IsNumeral.ne_nil (h : IsNumeral cs) : cs ≠ [] := by
  obtain ⟨minus, _, -, ⟨units, fraction, exponent, hunits, -, -, rfl⟩, rfl⟩ := h
  exact List.append_ne_nil_of_right_ne_nil minus (List.append_ne_nil_of_left_ne_nil hunits.1.1 _)

theorem IsNumeral.exists_cons (h : IsNumeral cs) :
    ∃ c tail, cs = c :: tail ∧ isNumeralChar c = true := by
  obtain ⟨c, tail, rfl⟩ := List.exists_cons_of_ne_nil h.ne_nil
  exact ⟨c, tail, rfl, h.isNumeralChar_of_mem c List.mem_cons_self⟩

/-- A numeral is no other scalar. -/
theorem readScalar_of_isNumeralChar (hc : isNumeralChar c = true) (tail : List Char) :
    readScalar (c :: tail) =
      (Numeral.read (c :: tail)).bind fun x => x.1.toNumber?.map fun n => (.number n, x.2) := by
  have hne {d : Char} (hd : isNumeralChar d = false) {tail' : List Char} :
      c :: tail = d :: tail' → False := by
    rintro heq
    rw [(List.cons.inj heq).1, hd] at hc
    cases hc
  rw [readScalar.eq_5 (c :: tail) (fun _ => hne (by decide)) (fun _ => hne (by decide))
    (fun _ => hne (by decide)) (fun _ => hne (by decide))]
  cases Numeral.read (c :: tail) <;> rfl

/-- Whatever does not begin with a bracket or a brace is read as a scalar. -/
theorem readValue_of_ne (hbracket : c ≠ '[') (hbrace : c ≠ '{') (depth : Nat) (tail : List Char) :
    readValue depth (c :: tail) = readScalar (c :: tail) := by
  cases depth with
  | zero => rfl
  | succ depth =>
    exact readValue.eq_4 (c :: tail) depth (fun _ h => hbracket (List.cons.inj h).1)
      (fun _ h => hbrace (List.cons.inj h).1)

/-- A number is read as what its text stands for. -/
theorem readValue_number {n : Number} (h : n.IsStored) (hrest : PastNumeral rest) (depth : Nat) :
    readValue depth (n.write ++ rest) = n.reread.map fun n => (.number n, rest) := by
  have hnumeral := Number.isNumeral_write h.isFinite
  obtain ⟨x, hx⟩ := hnumeral.exists_read
  obtain ⟨c, tail, hwrite, hc⟩ := hnumeral.exists_cons
  have hbracket : c ≠ '[' := by
    rintro rfl
    exact absurd hc (by decide)
  have hbrace : c ≠ '{' := by
    rintro rfl
    exact absurd hc (by decide)
  have hread := hx rest hrest
  have halone := hx [] nofun
  rw [List.append_nil] at halone
  rw [Number.reread, halone]
  rw [hwrite, List.cons_append] at hread ⊢
  rw [readValue_of_ne hbracket hbrace, readScalar_of_isNumeralChar hc, hread]
  rfl

/-- A string is read as it is. -/
theorem readValue_quote (s : String) (rest : List Char) (depth : Nat) :
    readValue depth (quote s ++ rest) = some (.string s, rest) := by
  rw [quote, List.cons_append, List.append_assoc, List.singleton_append,
    readValue_of_ne (by decide) (by decide), readScalar, readChars_flatMap_escape]
  exact congrArg (fun s => some (Value.string s, rest)) String.ofList_toList

/-! ## Values -/

namespace Value

variable {items : List Value} {fields : Fields}

theorem write_array :
    (array items).write = '[' :: (commaSeparated (items.map write) ++ [']']) := by
  have hitems (items : List Value) :
      writeItems items = (items.map write).flatMap (',' :: ·) ++ [']'] := by
    induction items with
    | nil => rfl
    | cons v items ih =>
      rw [writeItems, ih, List.map_cons, List.flatMap_cons, List.cons_append, List.cons_append,
        List.append_assoc]
  cases items with
  | nil => rfl
  | cons v items =>
    rw [write, hitems, List.map_cons, commaSeparated, List.append_assoc]

/-- The text of a field. -/
def writeField (field : String × Value) : List Char := quote field.1 ++ ':' :: field.2.write

theorem write_object :
    (object fields).write = '{' :: (commaSeparated (fields.map writeField) ++ ['}']) := by
  have hfields (fields : Fields) :
      writeFields fields = (fields.map writeField).flatMap (',' :: ·) ++ ['}'] := by
    induction fields with
    | nil => rfl
    | cons field fields ih =>
      rw [writeFields, ih, List.map_cons, List.flatMap_cons, writeField]
      simp only [List.cons_append, List.append_assoc]
  cases fields with
  | nil => rfl
  | cons field fields =>
    rw [write, hfields, List.map_cons, commaSeparated, writeField]
    simp only [List.cons_append, List.append_assoc]

mutual

/-- The value that the text of a value stands for: its numbers are read again, and the fields of
its objects are put in order. -/
def reread : Value → Option Value
  | number n => n.reread.map number
  | array items => (rereadItems items).map array
  | object fields => (rereadFields fields).map ofMembers
  | v => some v

/-- The items that the texts of items stand for. -/
def rereadItems : List Value → Option (List Value)
  | [] => some []
  | v :: rest => do
    let v ← reread v
    let rest ← rereadItems rest
    return v :: rest

/-- The members that the texts of fields stand for. -/
def rereadFields : List (String × Value) → Option (List (String × Value))
  | [] => some []
  | (k, v) :: rest => do
    let v ← reread v
    let rest ← rereadFields rest
    return (k, v) :: rest

end

/-- The member that the text of a field stands for. -/
def rereadField (field : String × Value) : Option (String × Value) :=
  field.2.reread.map fun v => (field.1, v)

theorem reread_array : (array items).reread = (items.mapM reread).map array := by
  rw [reread]
  congr 1
  induction items with
  | nil => rfl
  | cons v items ih => rw [rereadItems, ih, List.mapM_cons]

theorem reread_object : (object fields).reread = (fields.mapM rereadField).map ofMembers := by
  rw [reread]
  congr 1
  induction fields with
  | nil => rfl
  | cons field fields ih =>
    rw [rereadFields, ih, List.mapM_cons, rereadField]
    cases field.2.reread <;> rfl

/-! ### Ends -/

/-- A character that is no blank. -/
def isInk (c : Char) : Bool := !Text.isBlank c

/-- A character that the text of a value can begin with. -/
def isOpening (c : Char) : Bool := isNumeralChar c || ['n', 't', 'f', '"', '[', '{'].contains c

/-- A character that the text of a value can end with. -/
def isClosing (c : Char) : Bool := isNumeralChar c || ['l', 'e', '"', ']', '}'].contains c

theorem exists_write_eq_cons (v : Value) :
    ∃ c tail, v.write = c :: tail ∧ isOpening c = true := by
  cases v with
  | null => exact ⟨_, _, rfl, by decide⟩
  | bool b => cases b <;> exact ⟨_, _, rfl, by decide⟩
  | number n =>
    rcases n.write_cases with h | h
    · obtain ⟨c, tail, hwrite, hc⟩ := h.exists_cons
      exact ⟨c, tail, hwrite, by rw [isOpening, hc, Bool.true_or]⟩
    · exact ⟨_, _, h, by decide⟩
  | string s => exact ⟨_, _, rfl, by decide⟩
  | array items => exact ⟨_, _, write_array, by decide⟩
  | object fields => exact ⟨_, _, write_object, by decide⟩

theorem exists_write_eq_concat (v : Value) :
    ∃ front c, v.write = front ++ [c] ∧ isClosing c = true := by
  cases v with
  | null => exact ⟨['n', 'u', 'l'], 'l', rfl, by decide⟩
  | bool b =>
    cases b
    · exact ⟨['f', 'a', 'l', 's'], 'e', rfl, by decide⟩
    · exact ⟨['t', 'r', 'u'], 'e', rfl, by decide⟩
  | number n =>
    rcases n.write_cases with h | h
    · have hc := h.isNumeralChar_of_mem _ (List.getLast_mem h.ne_nil)
      exact ⟨_, _, (List.dropLast_append_getLast h.ne_nil).symm,
        by rw [isClosing, hc, Bool.true_or]⟩
    · exact ⟨['n', 'u', 'l'], 'l', h, by decide⟩
  | string s => exact ⟨'"' :: s.toList.flatMap escape, '"', rfl, by decide⟩
  | array items => exact ⟨'[' :: _, ']', write_array, by decide⟩
  | object fields => exact ⟨'{' :: _, '}', write_object, by decide⟩

theorem isInk_of_isNumeralChar {c : Char} (h : isNumeralChar c = true) : isInk c = true := by
  have hmarks : ['-', '+', '.', 'e', 'E'].all isInk = true := by decide
  rw [isNumeralChar, Bool.or_eq_true, List.contains_iff_mem] at h
  rcases h with hdigit | hmark
  · have hlow : 48 ≤ c.toNat := Char.isDigit_iff_toNat.mp hdigit |>.1
    have hhigh : c.toNat ≤ 57 := Char.isDigit_iff_toNat.mp hdigit |>.2
    simp [isInk, Text.isBlank]
    omega
  · exact List.all_eq_true.mp hmarks c hmark

theorem isInk_of_isOpening {c : Char} (h : isOpening c = true) : isInk c = true := by
  have hmarks : ['n', 't', 'f', '"', '[', '{'].all isInk = true := by decide
  rw [isOpening, Bool.or_eq_true, List.contains_iff_mem] at h
  exact h.elim isInk_of_isNumeralChar (List.all_eq_true.mp hmarks c)

theorem isInk_of_isClosing {c : Char} (h : isClosing c = true) : isInk c = true := by
  have hmarks : ['l', 'e', '"', ']', '}'].all isInk = true := by decide
  rw [isClosing, Bool.or_eq_true, List.contains_iff_mem] at h
  exact h.elim isInk_of_isNumeralChar (List.all_eq_true.mp hmarks c)

theorem isBlank_of_isInk {c : Char} (h : isInk c = true) : Text.isBlank c = false := by
  rwa [isInk, Bool.not_eq_true'] at h

/-- The blanks of JSON are blanks. -/
theorem jsonIsBlank_of_isInk {c : Char} (h : isInk c = true) : Json.isBlank c = false := by
  rw [Bool.eq_false_iff]
  intro hblank
  simp only [Json.isBlank, Bool.or_eq_true, beq_iff_eq, or_assoc] at hblank
  rcases hblank with rfl | rfl | rfl | rfl <;> exact absurd h (by decide)

/-- No blanks stand at the ends of the text of a value. -/
theorem trim_write (v : Value) : Text.trim v.write = v.write := by
  obtain ⟨c, tail, hhead, hc⟩ := exists_write_eq_cons v
  obtain ⟨front, d, hlast, hd⟩ := exists_write_eq_concat v
  have hstart : Text.trimStart v.write = v.write := by
    rw [hhead, Text.trimStart, List.dropWhile_cons,
      isBlank_of_isInk (isInk_of_isOpening hc)]
    rfl
  have hend : v.write.reverse.dropWhile Text.isBlank = v.write.reverse := by
    rw [hlast, List.reverse_concat, List.dropWhile_cons,
      isBlank_of_isInk (isInk_of_isClosing hd)]
    rfl
  rw [Text.trim, hstart, Text.trimEnd, hend, List.reverse_reverse]

/-! ### Reading -/

theorem skipBlanks_write (v : Value) (rest : List Char) :
    skipBlanks (v.write ++ rest) = v.write ++ rest := by
  obtain ⟨c, tail, hwrite, hc⟩ := exists_write_eq_cons v
  rw [hwrite]
  exact skipBlanks_cons (jsonIsBlank_of_isInk (isInk_of_isOpening hc)) (tail ++ rest)

theorem isEntry_write {v : Value} {depth : Nat}
    (h : ∀ rest, PastNumeral rest →
      readValue depth (v.write ++ rest) = v.reread.map fun v => (v, rest)) :
    IsEntry ']' (readValue depth) v.write v.reread := by
  obtain ⟨c, tail, hwrite, hc⟩ := exists_write_eq_cons v
  refine ⟨⟨c, tail, hwrite, jsonIsBlank_of_isInk (isInk_of_isOpening hc), ?_⟩, h⟩
  rintro rfl
  exact absurd hc (by decide)

theorem isEntry_writeField {field : String × Value} {depth : Nat}
    (h : ∀ rest, PastNumeral rest →
      readValue depth (field.2.write ++ rest) = field.2.reread.map fun v => (v, rest)) :
    IsEntry '}' (readMember (readValue depth)) (writeField field) (rereadField field) := by
  refine ⟨⟨'"', _, rfl, by decide, by decide⟩, fun rest hrest => ?_⟩
  rw [writeField, List.append_assoc, readMember, readString_quote]
  simp only [List.cons_append, skipBlanks_cons (c := ':') rfl, skipBlanks_write, h rest hrest,
    rereadField, Option.map_map]
  rfl

/-- The text of a value is read as what it stands for, whatever follows it. -/
theorem readValue_write {v : Value} {depth : Nat} (hnumbers : ∀ n ∈ v.numbers, n.IsStored)
    (hdepth : v.height ≤ depth) (hrest : PastNumeral rest) :
    readValue depth (v.write ++ rest) = v.reread.map fun v => (v, rest) := by
  induction v using inductionOn generalizing depth rest with
  | null => exact readValue_of_ne (by decide) (by decide) depth _
  | bool b => cases b <;> exact readValue_of_ne (by decide) (by decide) depth _
  | number n =>
    rw [reread, Option.map_map]
    exact readValue_number (hnumbers n (List.mem_singleton_self n)) hrest depth
  | string s => exact readValue_quote s rest depth
  | array items ih =>
    obtain ⟨depth, rfl⟩ := Nat.exists_eq_succ_of_ne_zero (Nat.ne_zero_of_lt hdepth)
    rw [height_array_le] at hdepth
    rw [forall_numbers_array] at hnumbers
    have hitems := readContainer_append isClose_bracket (fun v hv => isEntry_write fun rest =>
      ih v hv (hnumbers v hv) (hdepth v hv)) rest
    rw [write_array, List.cons_append, List.append_assoc, List.singleton_append, readValue, hitems,
      reread_array, Option.map_map, Option.map_map]
    rfl
  | object fields ih =>
    obtain ⟨depth, rfl⟩ := Nat.exists_eq_succ_of_ne_zero (Nat.ne_zero_of_lt hdepth)
    rw [height_object_le] at hdepth
    rw [forall_numbers_object] at hnumbers
    have hfields := readContainer_append isClose_brace (fun field hfield =>
      isEntry_writeField fun rest =>
        ih field hfield (hnumbers field hfield) (hdepth field hfield)) rest
    rw [write_object, List.cons_append, List.append_assoc, List.singleton_append, readValue,
      hfields, reread_object, Option.map_map, Option.map_map]
    rfl

/-- The compact text of a value is read as what it stands for. -/
theorem read?_write {v : Value} (hnumbers : ∀ n ∈ v.numbers, n.IsStored)
    (hdepth : v.height ≤ nestingLimit) : read? v.write = v.reread := by
  have hskip := skipBlanks_write v []
  have hread : readValue nestingLimit (v.write ++ []) = _ := readValue_write hnumbers hdepth nofun
  rw [List.append_nil] at hskip hread
  rw [read?, hskip, hread]
  cases v.reread <;> rfl

/-! ## Values that stand for themselves -/

/-- A value as it can be held: its numbers can be, and its objects have their fields in order. -/
inductive IsStored : Value → Prop
  | null : IsStored null
  | bool (b : Bool) : IsStored (bool b)
  | number {n : Number} (h : n.IsStored) : IsStored (number n)
  | string (s : String) : IsStored (string s)
  | array {items : List Value} (h : ∀ v ∈ items, IsStored v) : IsStored (array items)
  | object {fields : Fields} (hkeys : fields.Ascending)
    (h : ∀ field ∈ fields, IsStored field.2) : IsStored (object fields)

theorem IsStored.numbers {v : Value} (h : v.IsStored) : ∀ n ∈ v.numbers, n.IsStored := by
  induction h with
  | null | bool | string => exact nofun
  | number h =>
    intro n hn
    rw [List.mem_singleton.mp hn]
    exact h
  | array _ ih => exact forall_numbers_array.mpr ih
  | object _ _ ih => exact forall_numbers_object.mpr ih

theorem mapM_eq_some_iff {α β : Type} {f : α → Option β} {xs : List α} {ys : List β} :
    xs.mapM f = some ys ↔ List.Forall₂ (fun x y => f x = some y) xs ys := by
  induction xs generalizing ys with
  | nil => simp [eq_comm]
  | cons x xs ih =>
    simp only [List.mapM_cons, Option.bind_eq_bind, Option.bind_eq_some_iff, Option.pure_def,
      Option.some.injEq, List.forall₂_cons_left_iff, ih, eq_comm (b := ys), exists_and_left]

/-- Rereading fields keeps their keys. -/
theorem keys_of_reread {members : Fields} (h : fields.mapM rereadField = some members) :
    members.map Prod.fst = fields.map Prod.fst := by
  have hall := mapM_eq_some_iff.mp h
  clear h
  induction hall with
  | nil => rfl
  | cons hfield _ ih =>
    obtain ⟨v, -, rfl⟩ := Option.map_eq_some_iff.mp hfield
    rw [List.map_cons, List.map_cons, ih]

theorem ofMembers_of_reread {members : Fields} (hkeys : fields.Ascending)
    (h : fields.mapM rereadField = some members) : ofMembers members = object members := by
  have hmembers : members.Ascending := by
    rw [Fields.Ascending, ← List.pairwise_map] at hkeys ⊢
    rw [keys_of_reread h]
    exact hkeys
  rw [ofMembers, Fields.ofList_of_ascending hmembers]

/-- A value stands for itself exactly if each of its numbers does. -/
theorem reread_eq_self_iff {v : Value} (h : v.IsStored) :
    v.reread = some v ↔ ∀ n ∈ v.numbers, n.reread = some n := by
  induction h with
  | null | bool | string => exact ⟨fun _ => nofun, fun _ => rfl⟩
  | @number n h =>
    have hnumber : (number n).reread = n.reread.map number := rfl
    have hnumbers : (number n).numbers = [n] := rfl
    rw [hnumber, hnumbers, List.forall_mem_singleton]
    cases n.reread <;> simp
  | @array items _ ih =>
    have hitems : (array items).reread = some (array items) ↔ items.mapM reread = some items := by
      rw [reread_array]
      cases items.mapM reread <;> simp
    rw [hitems, mapM_eq_some_iff, List.forall₂_same, forall_numbers_array]
    exact forall₂_congr ih
  | @object fields hkeys _ ih =>
    have hfields : (object fields).reread = some (object fields) ↔
        fields.mapM rereadField = some fields := by
      rw [reread_object]
      cases hmembers : fields.mapM rereadField with
      | none => simp
      | some members => simp [ofMembers_of_reread hkeys hmembers]
    have hfield (field : String × Value) :
        rereadField field = some field ↔ field.2.reread = some field.2 := by
      rw [rereadField]
      cases field.2.reread <;> simp [Prod.ext_iff]
    rw [hfields, mapM_eq_some_iff, List.forall₂_same, forall_numbers_object]
    exact forall₂_congr fun field hmem => (hfield field).trans (ih field hmem)

/-- Reading a value again gives no more text than there was. -/
theorem textSize_reread_le {v w : Value} (h : v.reread = some w) : w.textSize ≤ v.textSize := by
  induction v using inductionOn generalizing w with
  | null | bool | string =>
    cases h
    exact Nat.le_refl _
  | number n =>
    obtain ⟨m, -, rfl⟩ := Option.map_eq_some_iff.mp h
    exact Nat.le_refl 0
  | array items ih =>
    rw [reread_array] at h
    obtain ⟨ws, hws, rfl⟩ := Option.map_eq_some_iff.mp h
    have hall := (List.forall₂_and_left _ _).mpr ⟨ih, mapM_eq_some_iff.mp hws⟩
    have hsizes : List.Forall₂ (· ≤ ·) (ws.map textSize) (items.map textSize) := by
      rw [List.forall₂_map_left_iff, List.forall₂_map_right_iff]
      exact (hall.imp fun _ _ hv => hv.1 hv.2).flip
    rw [textSize_array, textSize_array]
    exact hsizes.sum_le_sum
  | object fields ih =>
    rw [reread_object] at h
    obtain ⟨members, hmembers, rfl⟩ := Option.map_eq_some_iff.mp h
    have hall := (List.forall₂_and_left _ _).mpr ⟨ih, mapM_eq_some_iff.mp hmembers⟩
    have hsizes : List.Forall₂ (· ≤ ·)
        (members.map fun field => field.1.length + field.2.textSize)
        (fields.map fun field => field.1.length + field.2.textSize) := by
      rw [List.forall₂_map_left_iff, List.forall₂_map_right_iff]
      refine (hall.imp fun field member hfield => ?_).flip
      obtain ⟨v, hv, rfl⟩ := Option.map_eq_some_iff.mp hfield.2
      exact Nat.add_le_add_left (hfield.1 hv) field.1.length
    have hmembers := Fields.textSize_ofList_le members
    rw [ofMembers, textSize_object, textSize_object]
    exact hmembers.trans hsizes.sum_le_sum

end Value

end TriageFlow.Json
