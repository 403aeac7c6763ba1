import Mathlib.Data.List.Sort
import TriageFlow.Proofs.Values

/-!
Fields by their keys. Putting a field in its place keeps the order of the keys, so an object made of
any members has its keys in order (`Fields.ascending_ofList`). Where keys ascend, fields are told by
what is found under each key (`Fields.Ascending.ext`), and all that is done with them can be said of
one key at a time.
-/

namespace TriageFlow.Json

namespace Fields

variable {fields members : Fields} {key : String} {value : Value} {field : String × Value}

/-! ## What is found under a key -/

theorem find?_isSome_iff : (find? key fields).isSome = true ↔ key ∈ fields.map Prod.fst := by
  induction fields with
  | nil => simp [find?]
  | cons field fields ih =>
    obtain ⟨k, v⟩ := field
    rw [find?, List.map_cons, List.mem_cons, ← ih]
    by_cases hk : k = key
    · simp [hk]
    · simp [hk, Ne.symm hk]

theorem find?_without (keys : List String) (fields : Fields) :
    find? key (fields.without keys) = if key ∈ keys then none else find? key fields := by
  unfold without
  induction fields with
  | nil => simp [find?]
  | cons field fields ih =>
    obtain ⟨k, v⟩ := field
    by_cases hdropped : k ∈ keys
    · rw [List.filter_cons_of_neg (by simpa using hdropped), ih, find?]
      by_cases hkey : key ∈ keys
      · rw [if_pos hkey, if_pos hkey]
      · have hk : k ≠ key := fun heq => hkey (heq ▸ hdropped)
        rw [if_neg hkey, if_neg hkey, if_neg hk]
    · rw [List.filter_cons_of_pos (by simpa using hdropped), find?, find?, ih]
      by_cases hk : k = key
      · rw [if_pos hk, if_pos hk, if_neg (hk ▸ hdropped)]
      · rw [if_neg hk, if_neg hk]

theorem mem_insert (h : field ∈ insert key value fields) :
    field = (key, value) ∨ field ∈ fields := by
  induction fields with
  | nil => exact .inl (List.mem_singleton.mp h)
  | cons first fields ih =>
    obtain ⟨k, v⟩ := first
    rw [insert] at h
    split at h
    · exact (List.mem_cons.mp h).imp_right (List.mem_cons_of_mem _)
    · split at h
      · exact List.mem_cons.mp h
      · obtain h | h := List.mem_cons.mp h
        · exact .inr (h ▸ List.mem_cons_self)
        · exact (ih h).imp_right (List.mem_cons_of_mem _)

theorem mem_foldl_insert
    (h : field ∈ members.foldl (fun fields member => insert member.1 member.2 fields) fields) :
    field ∈ members ∨ field ∈ fields := by
  induction members generalizing fields with
  | nil => exact .inr h
  | cons member members ih =>
    obtain hfield | hfield := ih h
    · exact .inl (List.mem_cons_of_mem _ hfield)
    · obtain hfield | hfield := mem_insert hfield
      · exact .inl (hfield ▸ List.mem_cons_self)
      · exact .inr hfield

theorem mem_ofList (h : field ∈ ofList members) : field ∈ members :=
  (mem_foldl_insert h).resolve_right List.not_mem_nil

/-! ## Ascending keys -/

theorem Ascending.insert (h : fields.Ascending) (key : String) (value : Value) :
    (Fields.insert key value fields).Ascending := by
  induction fields with
  | nil => exact List.pairwise_singleton ..
  | cons first fields ih =>
    obtain ⟨k, v⟩ := first
    obtain ⟨hfirst, hrest⟩ := List.pairwise_cons.mp h
    rw [Fields.insert]
    split
    · next hkey => exact List.pairwise_cons.mpr ⟨hkey ▸ hfirst, hrest⟩
    · next hne =>
      split
      · next hbefore =>
        refine List.pairwise_cons.mpr ⟨fun later hlater => ?_, h⟩
        obtain hlater | hlater := List.mem_cons.mp hlater
        · rw [hlater]
          exact hbefore
        · exact String.lt_trans hbefore (hfirst later hlater)
      · next hnotBefore =>
        have hafter : k < key := Std.lt_of_le_of_ne (String.not_lt.mp hnotBefore) (Ne.symm hne)
        refine List.pairwise_cons.mpr ⟨fun later hlater => ?_, ih hrest⟩
        obtain hlater | hlater := mem_insert hlater
        · rw [hlater]
          exact hafter
        · exact hfirst later hlater

/-- The fields of any members have their keys in order. -/
theorem ascending_ofList (members : Fields) : (ofList members).Ascending := by
  have hfold (fields : Fields) (h : fields.Ascending) :
      Ascending (members.foldl (fun fields member => Fields.insert member.1 member.2 fields)
        fields) := by
    induction members generalizing fields with
    | nil => exact h
    | cons member members ih => exact ih _ (h.insert member.1 member.2)
  exact hfold [] List.Pairwise.nil

theorem Ascending.without (h : fields.Ascending) (keys : List String) :
    (fields.without keys).Ascending := List.Pairwise.filter _ h

/-- Where keys ascend, the fields are what is found under each key. -/
theorem Ascending.mem_iff (h : fields.Ascending) :
    (key, value) ∈ fields ↔ find? key fields = some value := by
  induction fields with
  | nil => simp [find?]
  | cons field fields ih =>
    obtain ⟨k, v⟩ := field
    obtain ⟨hfirst, hrest⟩ := List.pairwise_cons.mp h
    rw [List.mem_cons, find?]
    by_cases hk : k = key
    · have habsent : (key, value) ∉ fields := by
        intro hmem
        have hlt : k < key := hfirst _ hmem
        rw [hk] at hlt
        exact String.lt_irrefl key hlt
      simp [hk, habsent, eq_comm]
    · rw [if_neg hk, ← ih hrest]
      simp [Ne.symm hk]

/-- Where keys ascend, fields are told by what is found under each key. -/
theorem Ascending.ext (hfields : fields.Ascending) (hmembers : members.Ascending)
    (h : ∀ key, find? key fields = find? key members) : fields = members := by
  have hirrefl : Std.Irrefl fun field later : String × Value => field.1 < later.1 :=
    ⟨fun field => String.lt_irrefl field.1⟩
  have hantisymm : Std.Antisymm fun field later : String × Value => field.1 < later.1 :=
    ⟨fun field later hlt hgt => absurd hgt (String.lt_asymm hlt)⟩
  refine List.Pairwise.eq_of_mem_iff hfields hmembers fun field => ?_
  rw [hfields.mem_iff, h, ← hmembers.mem_iff]

/-- The first field under a key of ascending fields is also the last one. -/
theorem Ascending.lookup_reverse (h : fields.Ascending) (key : String) :
    fields.reverse.lookup key = find? key fields := by
  rw [← find?_ofList, ofList_of_ascending h]

end Fields

end TriageFlow.Json
