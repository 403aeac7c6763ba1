import TriageFlow.Context.Analysis
import TriageFlow.Proofs.Comparing
import TriageFlow.Proofs.Keys

/-!
Analyses as values. The object of an analysis holds its three known fields and, beside them, every
other field of the object that the analysis was taken from (`Analysis.field?_toValue`). A known
field of no use takes its default and leaves the rest alone, and an analysis is taken as it is from
its own object (`Analysis.ofValue_toValue`).
-/

namespace TriageFlow

open Json (Value Fields Number)

theorem Decimal.StandsFor.isFinite {x : Float.Model.UnpackedFloat} {z : Int}
    (h : Decimal.StandsFor x z) : x.isFinite = true := by
  cases h <;> rfl

/-- A number that a value can hold is finite as a float. -/
theorem Json.Number.isFinite_toFloat {n : Number} (h : n.IsStored) :
    n.toFloat.isFinite = true := by
  cases n with
  | whole n => exact (Number.standsFor_of_isStored h).isFinite
  | real x => exact h

namespace Analysis

variable {a : Analysis} {v : Value} {fields : Fields} {key : String}

/-! ## The object of an analysis -/

/-- The known fields of an analysis. -/
def known (a : Analysis) : Fields :=
  [("sentiment", .float a.sentiment), ("is_urgent", .bool a.isUrgent), ("intent", .string a.intent)]

theorem lookup_known_isSome_iff (a : Analysis) (key : String) :
    (a.known.reverse.lookup key).isSome = true ↔ key ∈ knownKeys := by
  have hkeys : a.known.map Prod.fst = knownKeys := rfl
  rw [List.lookup_isSome_iff, ← hkeys, List.mem_map]
  simp only [List.mem_reverse, beq_iff_eq]
  exact exists_congr fun field => and_congr_right fun _ => eq_comm

/-- The other fields of an analysis are in order, and none of them is under a known key. -/
structure IsKept (a : Analysis) : Prop where
  ascending : a.extra.Ascending
  unknown : ∀ key ∈ knownKeys, Fields.find? key a.extra = none

theorem isKept_ofFields (h : fields.Ascending) : (ofFields fields).IsKept := by
  refine ⟨h.without knownKeys, fun key hkey => ?_⟩
  exact (Fields.find?_without knownKeys fields).trans (if_pos hkey)

theorem find?_extra_ofFields (fields : Fields) (hkey : key ∉ knownKeys) :
    Fields.find? key (ofFields fields).extra = Fields.find? key fields :=
  (Fields.find?_without knownKeys fields).trans (if_neg hkey)

/-- Under a key stands another field of this key, or else the known field. -/
theorem field?_toValue (h : a.IsKept) (key : String) :
    a.toValue.field? key = (Fields.find? key a.extra).or (a.known.reverse.lookup key) := by
  have hmembers : a.members.reverse = a.extra.reverse ++ a.known.reverse := by
    rw [← List.reverse_append]
    rfl
  rw [toValue, Value.field?_ofMembers, hmembers, List.lookup_append, h.ascending.lookup_reverse]

theorem field?_toValue_of_known (h : a.IsKept) (hkey : key ∈ knownKeys) :
    a.toValue.field? key = a.known.reverse.lookup key := by
  rw [field?_toValue h, h.unknown key hkey, Option.none_or]

theorem field?_toValue_of_unknown (h : a.IsKept) (hkey : key ∉ knownKeys) :
    a.toValue.field? key = Fields.find? key a.extra := by
  have hnone : a.known.reverse.lookup key = none := by
    rw [← Option.not_isSome_iff_eq_none, lookup_known_isSome_iff]
    exact hkey
  rw [field?_toValue h, hnone, Option.or_none]

/-- An analysis is taken as it is from its own object. -/
theorem ofValue_toValue (h : a.IsKept) : ofValue a.toValue = .ok a := by
  have hsentiment : Fields.find? "sentiment" (.ofList a.members) = some (.float a.sentiment) :=
    field?_toValue_of_known h (by decide)
  have hurgent : Fields.find? "is_urgent" (.ofList a.members) = some (.bool a.isUrgent) :=
    field?_toValue_of_known h (by decide)
  have hintent : Fields.find? "intent" (.ofList a.members) = some (.string a.intent) :=
    field?_toValue_of_known h (by decide)
  have hextra : (Fields.ofList a.members).without knownKeys = a.extra := by
    refine ((Fields.ascending_ofList _).without _).ext h.ascending fun key => ?_
    rw [Fields.find?_without]
    by_cases hkey : key ∈ knownKeys
    · rw [if_pos hkey, h.unknown key hkey]
    · rw [if_neg hkey]
      exact field?_toValue_of_unknown h hkey
  have hread : ofValue a.toValue = .ok (ofFields (.ofList a.members)) := rfl
  rw [hread, ofFields, hsentiment, hurgent, hintent, hextra]
  rfl

/-- The object of an analysis can be held if its sentiment is finite and its other fields can. -/
theorem isStored_toValue (hsentiment : a.sentiment.isFinite = true)
    (hextra : ∀ field ∈ a.extra, field.2.IsStored) : a.toValue.IsStored := by
  refine .object (Fields.ascending_ofList _) fun field hfield => ?_
  have hmember := Fields.mem_ofList hfield
  simp only [members, List.mem_cons] at hmember
  obtain h | h | h | h := hmember
  · rw [h]
    exact .number hsentiment
  · rw [h]
    exact .bool _
  · rw [h]
    exact .string _
  · exact hextra field h

/-! ## What is taken from a value -/

theorem ofValue_eq_ok_iff :
    ofValue v = .ok a ↔ ∃ fields, v = .object fields ∧ a = ofFields fields := by
  cases v with
  | object fields => simp [ofValue, eq_comm]
  | null | bool | number | string | array => simp [ofValue]

theorem eq_of_ofValue_eq_error {fault : Fault} (h : ofValue v = .error fault) :
    fault = .malformedOutput ("expected a JSON object, got " ++ v.compact) := by
  cases v with
  | object fields => cases h
  | null | bool | number | string | array => exact (Except.error.inj h).symm

theorem sentiment_ofFields (fields : Fields) : (ofFields fields).sentiment =
    match Fields.find? "sentiment" fields with
    | some (.number n) => n.toFloat
    | _ => 0 := by
  unfold ofFields
  cases Fields.find? "sentiment" fields with
  | none => rfl
  | some v => cases v <;> rfl

theorem isUrgent_ofFields (fields : Fields) : (ofFields fields).isUrgent =
    match Fields.find? "is_urgent" fields with
    | some (.bool b) => b
    | _ => false := by
  unfold ofFields
  cases Fields.find? "is_urgent" fields with
  | none => rfl
  | some v => cases v <;> rfl

theorem intent_ofFields (fields : Fields) : (ofFields fields).intent =
    match Fields.find? "intent" fields with
    | some (.string s) => s
    | _ => "" := by
  unfold ofFields
  cases Fields.find? "intent" fields with
  | none => rfl
  | some v => cases v <;> rfl

/-- The sentiment that is taken from an object is finite. -/
theorem isFinite_sentiment_ofFields (h : (Value.object fields).IsStored) :
    (ofFields fields).sentiment.isFinite = true := by
  cases h with
  | object hkeys hvalues =>
    rw [sentiment_ofFields]
    split
    · next n hfield =>
      have hnumber : (Value.number n).IsStored := hvalues _ (hkeys.mem_iff.mpr hfield)
      cases hnumber with
      | number hn => exact Number.isFinite_toFloat hn
    · rfl

theorem isStored_ofFields (h : (Value.object fields).IsStored) :
    (ofFields fields).toValue.IsStored := by
  refine isStored_toValue (isFinite_sentiment_ofFields h) fun field hfield => ?_
  cases h with
  | object hkeys hvalues => exact hvalues field (List.mem_of_mem_filter hfield)

/-- The keys of an analysis are those of the object that it was taken from, and the known ones. -/
theorem field?_isSome_iff (hkeys : fields.Ascending) (key : String) :
    ((ofFields fields).toValue.field? key).isSome = true ↔
      key ∈ fields.map Prod.fst ∨ key ∈ knownKeys := by
  have hkept := isKept_ofFields hkeys
  by_cases hkey : key ∈ knownKeys
  · rw [field?_toValue_of_known hkept hkey, lookup_known_isSome_iff]
    exact ⟨.inr, fun _ => hkey⟩
  · rw [field?_toValue_of_unknown hkept hkey, find?_extra_ofFields fields hkey,
      Fields.find?_isSome_iff]
    exact ⟨.inl, fun h => h.resolve_right hkey⟩

/-- An analysis is taken from any object and from nothing else. As a value it is an object with the
keys of that object and the known ones: all other fields are as they were, and each known field is
what stood there, if it is of the right type, and otherwise its default. Of this object the same
analysis is taken again. -/
theorem objects_read_leniently {v : Value} (h : v.IsStored) :
    ((∃ a, ofValue v = .ok a) ↔ ∃ fields, v = .object fields) ∧
    (∀ fault, ofValue v = .error fault →
      fault = .malformedOutput ("expected a JSON object, got " ++ v.compact)) ∧
    ∀ a, ofValue v = .ok a →
      a.toValue.IsStored ∧
      (∃ fields members, v = .object fields ∧ a.toValue = .object members ∧
        ∀ key, key ∈ members.map Prod.fst ↔ key ∈ fields.map Prod.fst ∨ key ∈ knownKeys) ∧
      (∀ key, key ∉ knownKeys → a.toValue.field? key = v.field? key) ∧
      a.toValue.field? "sentiment" = some (.float (match v.field? "sentiment" with
        | some (.number n) => n.toFloat
        | _ => 0)) ∧
      a.toValue.field? "is_urgent" = some (.bool (match v.field? "is_urgent" with
        | some (.bool b) => b
        | _ => false)) ∧
      a.toValue.field? "intent" = some (.string (match v.field? "intent" with
        | some (.string s) => s
        | _ => "")) ∧
      ofValue a.toValue = .ok a := by
  have hobject : (∃ a, ofValue v = .ok a) ↔ ∃ fields, v = .object fields := by
    constructor
    · intro ⟨a, ha⟩
      obtain ⟨fields, hfields, -⟩ := ofValue_eq_ok_iff.mp ha
      exact ⟨fields, hfields⟩
    · intro ⟨fields, hfields⟩
      exact ⟨_, ofValue_eq_ok_iff.mpr ⟨fields, hfields, rfl⟩⟩
  refine ⟨hobject, fun fault => eq_of_ofValue_eq_error, fun a ha => ?_⟩
  obtain ⟨fields, rfl, rfl⟩ := ofValue_eq_ok_iff.mp ha
  have hkeys : Fields.Ascending fields := by
    cases h with
    | object hkeys _ => exact hkeys
  have hkept := isKept_ofFields hkeys
  refine ⟨isStored_ofFields h, ⟨fields, _, rfl, rfl, fun key => ?_⟩, fun key hkey => ?_, ?_, ?_, ?_,
    ofValue_toValue hkept⟩
  · rw [← Fields.find?_isSome_iff]
    exact field?_isSome_iff hkeys key
  · rw [field?_toValue_of_unknown hkept hkey]
    exact find?_extra_ofFields fields hkey
  · rw [field?_toValue_of_known hkept (by decide), Value.field?, ← sentiment_ofFields]
    rfl
  · rw [field?_toValue_of_known hkept (by decide), Value.field?, ← isUrgent_ofFields]
    rfl
  · rw [field?_toValue_of_known hkept (by decide), Value.field?, ← intent_ofFields]
    rfl

/-- An answer with a missing intent, a mistyped flag and a field of its own. -/
def clumsyAnswer : Value :=
  .object [("intent", .null), ("is_urgent", .string "yes"), ("sentiment", .number (.whole (-1))),
    ("topic", .string "billing")]

/-- Only the fields of no use take their defaults. -/
theorem clumsyAnswer_read_leniently :
    clumsyAnswer.IsStored ∧ ∃ a, ofValue clumsyAnswer = .ok a ∧
      a.toValue.field? "intent" = some (.string "") ∧
      a.toValue.field? "is_urgent" = some (.bool false) ∧
      a.toValue.field? "sentiment" = some (.float (Float.ofInt (-1))) ∧
      a.toValue.field? "topic" = some (.string "billing") ∧
      ofValue a.toValue = .ok a := by
  have hstored : clumsyAnswer.IsStored := by
    refine .object (by unfold Fields.Ascending; decide) ?_
    simp only [List.forall_mem_cons, List.not_mem_nil, false_implies, implies_true, and_true]
    exact ⟨.null, .string _, .number ⟨by decide, by decide⟩, .string _⟩
  obtain ⟨hobject, -, hreads⟩ := objects_read_leniently hstored
  obtain ⟨a, ha⟩ := hobject.mpr ⟨_, rfl⟩
  obtain ⟨-, -, hothers, hsentiment, hurgent, hintent, hagain⟩ := hreads a ha
  exact ⟨hstored, a, ha, hintent, hurgent, hsentiment, hothers "topic" (by decide), hagain⟩

end Analysis

end TriageFlow
