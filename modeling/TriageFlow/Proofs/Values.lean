import Mathlib.Algebra.Order.BigOperators.Group.List
import Mathlib.Algebra.Order.Ring.Nat
import TriageFlow.Json.Value

/-!
Walks over JSON values. What holds of a value if it holds of its items or of the values of its
fields holds of every value (`Value.inductionOn`). All that stands in a value is one of its parts,
and its strings and numbers are told from the list of these. Fields in the order of their keys are
those that an object of them has (`Fields.ofList_of_ascending`); no object has more text than the
members that it is made of (`Fields.textSize_ofList_le`).
-/

namespace TriageFlow.Json

namespace Value

variable {items : List Value} {fields : Fields}

/-- What holds of a value if it holds of the values in it holds of every value. -/
theorem inductionOn {P : Value → Prop} (v : Value) (null : P .null) (bool : ∀ b, P (.bool b))
    (number : ∀ n, P (.number n)) (string : ∀ s, P (.string s))
    (array : ∀ items, (∀ v ∈ items, P v) → P (.array items))
    (object : ∀ fields : Fields, (∀ field ∈ fields, P field.2) → P (.object fields)) : P v :=
  @Value.rec P (fun items => ∀ v ∈ items, P v) (fun fields => ∀ field ∈ fields, P field.2)
    (fun field => P field.2) null bool number string array object
    nofun (fun _ _ hv hitems => List.forall_mem_cons.mpr ⟨hv, hitems⟩)
    nofun (fun _ _ hfield hfields => List.forall_mem_cons.mpr ⟨hfield, hfields⟩)
    (fun _ _ hv => hv) v

/-! ## Parts -/

mutual

/-- A value and all values in it. -/
def parts : Value → List Value
  | array items => array items :: itemParts items
  | object fields => object fields :: fieldParts fields
  | v => [v]

/-- The parts of items. -/
def itemParts : List Value → List Value
  | [] => []
  | v :: rest => parts v ++ itemParts rest

/-- The parts of the values of fields. -/
def fieldParts : List (String × Value) → List Value
  | [] => []
  | (_, v) :: rest => parts v ++ fieldParts rest

end

theorem parts_array : (array items).parts = array items :: items.flatMap parts := by
  rw [parts]
  congr 1
  induction items with
  | nil => rfl
  | cons v items ih => rw [itemParts, ih, List.flatMap_cons]

theorem parts_object :
    (object fields).parts = object fields :: fields.flatMap fun field => field.2.parts := by
  rw [parts]
  congr 1
  induction fields with
  | nil => rfl
  | cons field fields ih => rw [fieldParts, ih, List.flatMap_cons]

/-- The strings that a value holds itself: its text, or the keys of its fields. -/
def ownStrings : Value → List String
  | string s => [s]
  | object fields => fields.map Prod.fst
  | _ => []

/-- All strings in a value, the keys of objects included. -/
def strings (v : Value) : List String := v.parts.flatMap ownStrings

/-- The number that a value is. -/
def number? : Value → Option Number
  | number n => some n
  | _ => none

/-- All numbers in a value. -/
def numbers (v : Value) : List Number := v.parts.filterMap number?

theorem strings_array : (array items).strings = items.flatMap strings := by
  rw [strings, parts_array, List.flatMap_cons, List.flatMap_assoc]
  rfl

theorem strings_object : (object fields).strings =
    fields.map Prod.fst ++ fields.flatMap fun field => field.2.strings := by
  rw [strings, parts_object, List.flatMap_cons, List.flatMap_assoc]
  rfl

theorem numbers_array : (array items).numbers = items.flatMap numbers := by
  rw [numbers, parts_array, List.filterMap_cons, List.filterMap_flatMap]
  rfl

theorem numbers_object :
    (object fields).numbers = fields.flatMap fun field => field.2.numbers := by
  rw [numbers, parts_object, List.filterMap_cons, List.filterMap_flatMap]
  rfl

theorem forall_numbers_array {P : Number → Prop} :
    (∀ n ∈ (array items).numbers, P n) ↔ ∀ v ∈ items, ∀ n ∈ v.numbers, P n := by
  rw [numbers_array, List.forall_mem_flatMap]

theorem forall_numbers_object {P : Number → Prop} :
    (∀ n ∈ (object fields).numbers, P n) ↔ ∀ field ∈ fields, ∀ n ∈ field.2.numbers, P n := by
  rw [numbers_object, List.forall_mem_flatMap]

theorem forall_strings_array {P : String → Prop} :
    (∀ s ∈ (array items).strings, P s) ↔ ∀ v ∈ items, ∀ s ∈ v.strings, P s := by
  rw [strings_array, List.forall_mem_flatMap]

theorem forall_strings_object {P : String → Prop} : (∀ s ∈ (object fields).strings, P s) ↔
    ∀ field ∈ fields, P field.1 ∧ ∀ s ∈ field.2.strings, P s := by
  rw [strings_object, List.forall_mem_append, List.forall_mem_map, List.forall_mem_flatMap]
  exact forall₂_and.symm

/-! ## Nesting -/

mutual

/-- How deep arrays and objects nest in a value. -/
def height : Value → Nat
  | array items => itemHeight items + 1
  | object fields => fieldHeight fields + 1
  | _ => 0

/-- How deep they nest in items. -/
def itemHeight : List Value → Nat
  | [] => 0
  | v :: rest => max (height v) (itemHeight rest)

/-- How deep they nest in the values of fields. -/
def fieldHeight : List (String × Value) → Nat
  | [] => 0
  | (_, v) :: rest => max (height v) (fieldHeight rest)

end

theorem height_array_le {depth : Nat} :
    (array items).height ≤ depth + 1 ↔ ∀ v ∈ items, v.height ≤ depth := by
  rw [height, Nat.add_le_add_iff_right]
  induction items with
  | nil => simp [itemHeight]
  | cons v items ih => rw [itemHeight, Nat.max_le, ih, List.forall_mem_cons]

theorem height_object_le {depth : Nat} :
    (object fields).height ≤ depth + 1 ↔ ∀ field ∈ fields, field.2.height ≤ depth := by
  rw [height, Nat.add_le_add_iff_right]
  induction fields with
  | nil => simp [fieldHeight]
  | cons field fields ih => rw [fieldHeight, Nat.max_le, ih, List.forall_mem_cons]

/-! ## Changing strings -/

mutual

/-- A value with a change made to each of its strings, the keys of objects included. -/
def mapStrings (f : String → String) : Value → Value
  | string s => string (f s)
  | array items => array (mapItems f items)
  | object fields => object (mapFields f fields)
  | v => v

/-- Items with a change made to each of their strings. -/
def mapItems (f : String → String) : List Value → List Value
  | [] => []
  | v :: rest => mapStrings f v :: mapItems f rest

/-- Fields with a change made to each of their strings. -/
def mapFields (f : String → String) : List (String × Value) → List (String × Value)
  | [] => []
  | (k, v) :: rest => (f k, mapStrings f v) :: mapFields f rest

end

variable {f : String → String}

theorem mapStrings_array :
    mapStrings f (array items) = array (items.map (mapStrings f)) := by
  rw [mapStrings]
  congr 1
  induction items with
  | nil => rfl
  | cons v items ih => rw [mapItems, ih, List.map_cons]

theorem mapStrings_object : mapStrings f (object fields) =
    object (fields.map fun field => (f field.1, mapStrings f field.2)) := by
  rw [mapStrings]
  congr 1
  induction fields with
  | nil => rfl
  | cons field fields ih => rw [mapFields, ih, List.map_cons]

theorem mapStrings_mapStrings (g : String → String) (v : Value) :
    mapStrings f (mapStrings g v) = mapStrings (f ∘ g) v := by
  induction v using inductionOn with
  | null | bool | number | string => rfl
  | array items ih =>
    simp only [mapStrings_array, List.map_map]
    exact congrArg Value.array (List.map_congr_left ih)
  | object fields ih =>
    simp only [mapStrings_object, List.map_map]
    refine congrArg Value.object (List.map_congr_left fun field hfield => ?_)
    exact congrArg (Prod.mk _) (ih field hfield)

theorem strings_mapStrings (f : String → String) (v : Value) :
    (v.mapStrings f).strings = v.strings.map f := by
  induction v using inductionOn with
  | null | bool | number | string => rfl
  | array items ih =>
    rw [mapStrings_array, strings_array, strings_array, List.map_flatMap, List.flatMap_map]
    exact List.flatMap_congr ih
  | object fields ih =>
    rw [mapStrings_object, strings_object, strings_object, List.map_append, List.map_flatMap,
      List.flatMap_map, List.map_map, List.map_map]
    exact congrArg _ (List.flatMap_congr ih)

theorem numbers_mapStrings (f : String → String) (v : Value) :
    (v.mapStrings f).numbers = v.numbers := by
  induction v using inductionOn with
  | null | bool | number | string => rfl
  | array items ih =>
    rw [mapStrings_array, numbers_array, numbers_array, List.flatMap_map]
    exact List.flatMap_congr ih
  | object fields ih =>
    rw [mapStrings_object, numbers_object, numbers_object, List.flatMap_map]
    exact List.flatMap_congr ih

theorem height_mapStrings_le {v : Value} {depth : Nat} (h : v.height ≤ depth) :
    (v.mapStrings f).height ≤ depth := by
  induction v using inductionOn generalizing depth with
  | null | bool | number | string => exact Nat.zero_le depth
  | array items ih =>
    obtain ⟨depth, rfl⟩ := Nat.exists_eq_succ_of_ne_zero (Nat.ne_zero_of_lt h)
    rw [mapStrings_array]
    refine height_array_le.mpr (List.forall_mem_map.mpr fun v hv => ?_)
    exact ih v hv (height_array_le.mp h v hv)
  | object fields ih =>
    obtain ⟨depth, rfl⟩ := Nat.exists_eq_succ_of_ne_zero (Nat.ne_zero_of_lt h)
    rw [mapStrings_object]
    refine height_object_le.mpr (List.forall_mem_map.mpr fun field hfield => ?_)
    exact ih field hfield (height_object_le.mp h field hfield)

/-- A change that leaves the strings of a value alone leaves the value alone. -/
theorem mapStrings_of_fixed {v : Value} (h : ∀ s ∈ v.strings, f s = s) : v.mapStrings f = v := by
  induction v using inductionOn with
  | null | bool | number => rfl
  | string s => exact congrArg Value.string (h s (List.mem_singleton_self s))
  | array items ih =>
    rw [forall_strings_array] at h
    have hitems : items.map (mapStrings f) = items.map id :=
      List.map_congr_left fun v hv => ih v hv (h v hv)
    rw [mapStrings_array, hitems, List.map_id]
  | object fields ih =>
    rw [forall_strings_object] at h
    have hfields : (fields.map fun field => (f field.1, mapStrings f field.2)) = fields.map id :=
      List.map_congr_left fun field hfield =>
        Prod.ext (h field hfield).1 (ih field hfield (h field hfield).2)
    rw [mapStrings_object, hfields, List.map_id]

/-! ## Amounts of text -/

/-- The length of all strings in a value. -/
def textSize (v : Value) : Nat := (v.strings.map String.length).sum

end Value

open Value

namespace Fields

variable {fields members : Fields} {key : String} {value : Value}

/-- The length of the keys of fields and of all strings in their values. -/
def textSize (fields : Fields) : Nat :=
  (fields.map fun field => field.1.length + field.2.textSize).sum

theorem textSize_cons (key : String) (value : Value) (fields : Fields) :
    textSize ((key, value) :: fields) = key.length + value.textSize + textSize fields := by
  rw [textSize, List.map_cons, List.sum_cons]
  rfl

theorem textSize_insert_le (key : String) (value : Value) (fields : Fields) :
    textSize (insert key value fields) ≤ key.length + value.textSize + textSize fields := by
  induction fields with
  | nil => exact (textSize_cons key value []).le
  | cons field fields ih =>
    obtain ⟨k, v⟩ := field
    rw [insert, textSize_cons]
    split
    · rw [textSize_cons]
      omega
    · split
      · rw [textSize_cons, textSize_cons]
      · rw [textSize_cons]
        omega

/-- An object has no more text than the members that it is made of. -/
theorem textSize_ofList_le (members : Fields) : textSize (ofList members) ≤ textSize members := by
  have hfold (fields : Fields) :
      textSize (members.foldl (fun fields member => insert member.1 member.2 fields) fields) ≤
        textSize fields + textSize members := by
    induction members generalizing fields with
    | nil => exact Nat.le_refl _
    | cons member members ih =>
      have hrest := ih (insert member.1 member.2 fields)
      have hmember := textSize_insert_le member.1 member.2 fields
      rw [textSize_cons, List.foldl_cons]
      omega
  have hall : _ ≤ 0 + _ := hfold []
  rwa [Nat.zero_add] at hall

/-! ## The order of fields -/

/-- Fields in the order of their keys, each key once. -/
def Ascending (fields : Fields) : Prop := fields.Pairwise fun field later => field.1 < later.1

/-- A field whose key is greater than all is put last. -/
theorem insert_of_forall_lt (h : ∀ field ∈ fields, field.1 < key) :
    insert key value fields = fields ++ [(key, value)] := by
  induction fields with
  | nil => rfl
  | cons field fields ih =>
    obtain ⟨k, v⟩ := field
    have hk : k < key := h (k, v) List.mem_cons_self
    have hne : key ≠ k := by
      rintro rfl
      exact String.lt_irrefl _ hk
    rw [insert, if_neg hne, if_neg (String.lt_asymm hk),
      ih fun field hfield => h field (List.mem_cons_of_mem _ hfield)]
    rfl

/-- Fields in the order of their keys are those that an object of them has. -/
theorem ofList_of_ascending (h : fields.Ascending) : ofList fields = fields := by
  have hfold (done : Fields) (hall : Ascending (done ++ fields)) :
      fields.foldl (fun fields member => insert member.1 member.2 fields) done =
        done ++ fields := by
    clear h
    induction fields generalizing done with
    | nil => exact (List.append_nil done).symm
    | cons field fields ih =>
      have hlast : ∀ earlier ∈ done, earlier.1 < field.1 := fun earlier hearlier =>
        (List.pairwise_append.mp hall).2.2 earlier hearlier field List.mem_cons_self
      rw [List.append_cons] at hall ⊢
      rw [List.foldl_cons, insert_of_forall_lt hlast]
      exact ih _ hall
  exact hfold [] h

end Fields

namespace Value

variable {items : List Value} {fields : Fields}

theorem textSize_array : (array items).textSize = (items.map textSize).sum := by
  rw [textSize, strings_array]
  induction items with
  | nil => rfl
  | cons v items ih =>
    rw [List.flatMap_cons, List.map_append, List.sum_append, ih, List.map_cons, List.sum_cons]
    rfl

theorem textSize_object : (object fields).textSize = Fields.textSize fields := by
  rw [textSize, strings_object]
  induction fields with
  | nil => rfl
  | cons field fields ih =>
    rw [List.map_append, List.sum_append] at ih ⊢
    rw [Fields.textSize_cons, ← ih, List.map_cons, List.map_cons, List.sum_cons, List.flatMap_cons,
      List.map_append, List.sum_append, textSize]
    omega

end Value

end TriageFlow.Json
