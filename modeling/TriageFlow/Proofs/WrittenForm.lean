import TriageFlow.Proofs.PathText
import TriageFlow.Proofs.Roundtrip
import TriageFlow.Workflow.Codec

/-!
Reading back the written form of workflow definitions. A predicate is written as a record of its
kind and its parts, and a record of a kind is read as the predicate that is assembled from what its
parts read as (`Predicate.ofValue?_record`); so predicates come back, however deep they nest. A
rule, a node and a definition are read field by field, and a text is never read as a predicate in
structured form (`Condition.text_toValue_ne`).
-/

namespace TriageFlow

/-! ## Records -/

namespace Json

open Value

theorem slots?_ofMembers (keys : List String) (members : List (String × Value)) :
    slots? keys (ofMembers members) = some (keys.map fun key => members.reverse.lookup key) := by
  simp only [ofMembers, slots?, Fields.find?_ofList]

namespace Value

/-- A list of values that come back comes back. -/
theorem toListOf?_map {α : Type} {read : Value → Option α} {write : α → Value} {xs : List α}
    (h : ∀ x ∈ xs, read (write x) = some x) : toListOf? read (array (xs.map write)) = some xs := by
  rw [toListOf?, mapM_eq_some_iff, List.forall₂_map_left_iff, List.forall₂_same]
  exact h

theorem finiteItems_eq_map (items : List Value) : finiteItems items = items.map finite := by
  induction items with
  | nil => rfl
  | cons v items ih => rw [finiteItems, ih, List.map_cons]

theorem finiteFields_eq_map (fields : Fields) :
    finiteFields fields = fields.map fun field => (field.1, field.2.finite) := by
  induction fields with
  | nil => rfl
  | cons field fields ih => rw [finiteFields, ih, List.map_cons]

/-- A value as it can be held has no other floats than finite ones. -/
theorem IsStored.finite_eq {v : Value} (h : v.IsStored) : v.finite = v := by
  induction h with
  | null | bool | string => rfl
  | @number n h =>
    cases n with
    | whole n => rfl
    | real x => exact if_pos h
  | @array items _ ih =>
    have hitems : items.map finite = items.map id := List.map_congr_left ih
    rw [finite, finiteItems_eq_map, hitems, List.map_id]
  | @object fields _ _ ih =>
    have hfields : (fields.map fun field => (field.1, field.2.finite)) = fields.map id :=
      List.map_congr_left fun field hfield => Prod.ext rfl (ih field hfield)
    rw [finite, finiteFields_eq_map, hfields, List.map_id]

end Value

end Json

open Json (Value Fields)

/-! ## Predicates -/

namespace Predicate

theorem value_reading (v : Value) : (reading v).value = v := by
  cases v <;> rfl

theorem readItems_eq_map (items : List Value) : readItems items = items.map reading := by
  induction items with
  | nil => rfl
  | cons v items ih => rw [readItems, ih, List.map_cons]

theorem lookup_readFields (key : String) (fields : Fields) :
    (readFields fields).lookup key = (Fields.find? key fields).map reading := by
  induction fields with
  | nil => rfl
  | cons field fields ih =>
    obtain ⟨k, v⟩ := field
    rw [readFields, List.lookup_cons, Fields.find?]
    by_cases hk : k = key
    · rw [if_pos hk, hk, beq_self_eq_true]
      rfl
    · rw [if_neg hk, beq_false_of_ne (Ne.symm hk), ih]

/-- A value of a kind with given parts. -/
def Kind.record (kind : Kind) (parts : List Value) : Value :=
  .ofMembers (("op", .string kind.name) :: kind.parts.zip parts)

theorem kind?_name (kind : Kind) : kind? (.string kind.name) = some kind := by
  cases kind with
  | compare op => cases op <;> rfl
  | _ => rfl

/-- The kind and the parts of a record are found under their names. -/
theorem Kind.lookup_record (kind : Kind) {parts : List Value}
    (h : parts.length = kind.parts.length) :
    (("op", .string kind.name) :: kind.parts.zip parts).reverse.lookup "op" =
      some (.string kind.name) ∧
    kind.parts.mapM (fun part =>
      ((("op", .string kind.name) :: kind.parts.zip parts).reverse.lookup part).map reading) =
      some (parts.map reading) := by
  match kind, parts, h with
  | .literal, [_], _ => exact ⟨rfl, rfl⟩
  | .field, [_], _ => exact ⟨rfl, rfl⟩
  | .compare _, [_, _], _ => exact ⟨rfl, rfl⟩
  | .all, [_], _ => exact ⟨rfl, rfl⟩
  | .any, [_], _ => exact ⟨rfl, rfl⟩
  | .not, [_], _ => exact ⟨rfl, rfl⟩

/-- A record of a kind is read as what its kind assembles from its parts. -/
theorem ofValue?_record (kind : Kind) {parts : List Value}
    (h : parts.length = kind.parts.length) :
    ofValue? (kind.record parts) = assemble kind (parts.map reading) := by
  obtain ⟨hkind, hparts⟩ := kind.lookup_record h
  have hread : ofValue? (kind.record parts) = ofReadFields (readFields
    (Fields.ofList (("op", .string kind.name) :: kind.parts.zip parts))) := rfl
  rw [hread, ofReadFields]
  simp only [lookup_readFields, Fields.find?_ofList, hkind, hparts, Option.map_some,
    Option.bind_eq_bind, Option.bind_some, value_reading, kind?_name]

/-- The kind of a predicate. -/
def kind : Predicate → Kind
  | literal _ => .literal
  | field _ => .field
  | compare op _ _ => .compare op
  | all _ => .all
  | any _ => .any
  | not _ => .not

/-- The parts of a predicate in their written form. -/
def parts : Predicate → List Value
  | literal v => [v]
  | field path => [.string path.toText]
  | compare _ left right => [left.toValue, right.toValue]
  | all operands => [.array (toValues operands)]
  | any operands => [.array (toValues operands)]
  | not operand => [operand.toValue]

theorem toValue_eq_record (p : Predicate) : p.toValue = p.kind.record p.parts := by
  cases p <;> simp only [toValue] <;> rfl

/-- A predicate is read back from what its parts read as. -/
theorem ofValue?_toValue_eq_assemble (p : Predicate) :
    ofValue? p.toValue = assemble p.kind (p.parts.map reading) := by
  have hlength : p.parts.length = p.kind.parts.length := by
    cases p <;> rfl
  rw [toValue_eq_record, ofValue?_record p.kind hlength]

theorem toValues_eq_map (ps : List Predicate) : toValues ps = ps.map toValue := by
  induction ps with
  | nil => rfl
  | cons p ps ih => rw [toValues, ih, List.map_cons]

/-- Predicates that come back one by one come back as a list. -/
theorem many_reading_toValues {ps : List Predicate} (h : ∀ p ∈ ps, ofValue? p.toValue = some p) :
    (reading (.array (toValues ps))).many = some ps := by
  have hmany : (reading (.array (toValues ps))).many =
      ((toValues ps).map reading).mapM Reading.one := by
    rw [← readItems_eq_map]
    rfl
  rw [hmany, toValues_eq_map, Value.mapM_eq_some_iff, List.map_map, List.forall₂_map_left_iff,
    List.forall₂_same]
  exact h

/-- A predicate as it can be held: its literals can be, and its paths are named by texts. -/
inductive IsStored : Predicate → Prop
  | literal {v : Value} (h : v.IsStored) : IsStored (literal v)
  | field (text : String) : IsStored (field (.ofText text))
  | compare (op : Comparison) {left right : Predicate} (hleft : IsStored left)
    (hright : IsStored right) : IsStored (compare op left right)
  | all {operands : List Predicate} (h : ∀ p ∈ operands, IsStored p) : IsStored (all operands)
  | any {operands : List Predicate} (h : ∀ p ∈ operands, IsStored p) : IsStored (any operands)
  | not {operand : Predicate} (h : IsStored operand) : IsStored (not operand)

/-- A predicate is read from its structured form. -/
theorem ofValue?_toValue {p : Predicate} (h : p.IsStored) : ofValue? p.toValue = some p := by
  induction h with
  | @literal v h =>
    calc ofValue? (literal v).toValue
        = assemble .literal [reading v] := ofValue?_toValue_eq_assemble (literal v)
      _ = some (literal v.finite) := by rw [assemble, value_reading]
      _ = some (literal v) := by rw [h.finite_eq]
  | field text =>
    calc ofValue? (field (.ofText text)).toValue
        = some (field (.ofText (Path.ofText text).toText)) :=
          ofValue?_toValue_eq_assemble (field (.ofText text))
      _ = some (field (.ofText text)) := by rw [Path.ofText_toText_ofText]
  | @compare op left right _ _ ihleft ihright =>
    calc ofValue? (compare op left right).toValue
        = (ofValue? left.toValue).bind fun l => (ofValue? right.toValue).bind fun r =>
          some (compare op l r) := ofValue?_toValue_eq_assemble (compare op left right)
      _ = some (compare op left right) := by rw [ihleft, ihright]; rfl
  | @all operands _ ih =>
    calc ofValue? (all operands).toValue
        = (reading (.array (toValues operands))).many.map all :=
          ofValue?_toValue_eq_assemble (all operands)
      _ = some (all operands) := by rw [many_reading_toValues ih]; rfl
  | @any operands _ ih =>
    calc ofValue? (any operands).toValue
        = (reading (.array (toValues operands))).many.map any :=
          ofValue?_toValue_eq_assemble (any operands)
      _ = some (any operands) := by rw [many_reading_toValues ih]; rfl
  | @not operand _ ih =>
    calc ofValue? (not operand).toValue
        = (ofValue? operand.toValue).map not := ofValue?_toValue_eq_assemble (not operand)
      _ = some (not operand) := by rw [ih]; rfl

/-- The structured form of a predicate is an object. -/
theorem exists_toValue_eq_object (p : Predicate) : ∃ fields, p.toValue = .object fields := by
  cases p <;> exact ⟨_, rfl⟩

end Predicate

/-! ## Conditions and rules -/

namespace Condition

/-- A condition as it can be held. -/
def IsStored : Condition → Prop
  | text _ => True
  | tree p => p.IsStored

/-- A text is not written as any predicate is. -/
theorem text_toValue_ne (source : String) (p : Predicate) :
    (text source).toValue ≠ (tree p).toValue := by
  obtain ⟨fields, hfields⟩ := p.exists_toValue_eq_object
  rw [toValue, toValue, hfields]
  nofun

theorem ofValue?_toValue {c : Condition} (h : c.IsStored) : ofValue? c.toValue = some c := by
  cases c with
  | text source => rfl
  | tree p =>
    have hread : ofValue? p.toValue = (Predicate.ofValue? p.toValue).map tree := by
      obtain ⟨fields, hfields⟩ := p.exists_toValue_eq_object
      rw [hfields]
      rfl
    rw [toValue, hread, Predicate.ofValue?_toValue h, Option.map_some]

end Condition

theorem RouteRule.ofValue?_toValue {r : RouteRule} (h : r.condition.IsStored) :
    ofValue? r.toValue = some r := by
  have hslots : Json.slots? ["when", "target"] r.toValue =
      some [some r.condition.toValue, some (.string r.target)] := by
    rw [toValue, Json.slots?_ofMembers]
    rfl
  rw [ofValue?, hslots]
  simp only [Option.bind_eq_bind, Option.bind_some, Json.required, Value.toString?,
    Condition.ofValue?_toValue h, Option.pure_def]

/-! ## Nodes -/

/-- A kind as it can be held: the conditions of a router and the payload of an action can be. -/
def NodeKind.IsStored : NodeKind → Prop
  | route rules => ∀ r ∈ rules, r.condition.IsStored
  | action _ payload => payload.IsStored
  | _ => True

namespace Node

/-- The fields that all nodes have, as they are written. -/
def frame (n : Node) : List (String × Value) :=
  [("id", .string n.id), ("name", .ofOption n.name), ("terminal", .bool n.terminal),
    ("kind", .string n.kind.label)]

/-- The fields of a kind are read beside those that all nodes have. -/
theorem ofFields?_members {n : Node} (h : n.kind.IsStored) :
    NodeKind.ofFields? (Fields.ofList (n.frame ++ n.kind.members)) = some n.kind := by
  obtain ⟨id, name, terminal, kind⟩ := n
  unfold NodeKind.ofFields?
  simp only [Fields.find?_ofList]
  cases kind with
  | transform | retrieve | analyze | generate => rfl
  | route rules =>
    have hrules : Value.toListOf? RouteRule.ofValue? (.array (rules.map RouteRule.toValue)) =
        some rules := Value.toListOf?_map fun r hr => RouteRule.ofValue?_toValue (h r hr)
    calc _
        = (Value.toListOf? RouteRule.ofValue? (.array (rules.map RouteRule.toValue))).bind
            fun rules => some (NodeKind.route rules) := rfl
      _ = some (NodeKind.route rules) := by rw [hrules, Option.bind_some]
  | action action payload =>
    calc _
        = some (NodeKind.action action payload.finite) := rfl
      _ = some (NodeKind.action action payload) := by rw [h.finite_eq]

/-- A node is read from its written form. -/
theorem ofValue?_toValue {n : Node} (h : n.kind.IsStored) : ofValue? n.toValue = some n := by
  have hvalue : n.toValue = .object (Fields.ofList (n.frame ++ n.kind.members)) := rfl
  have hid : (n.frame ++ n.kind.members).reverse.lookup "id" = some (.string n.id) := by
    cases n.kind <;> rfl
  have hname : (n.frame ++ n.kind.members).reverse.lookup "name" = some (.ofOption n.name) := by
    cases n.kind <;> rfl
  have hterminal : (n.frame ++ n.kind.members).reverse.lookup "terminal" =
      some (.bool n.terminal) := by
    cases n.kind <;> rfl
  have hoptional : Json.optional Value.toString? (some (.ofOption n.name)) = some n.name := by
    cases n.name <;> rfl
  rw [hvalue, ofValue?]
  simp only [Fields.find?_ofList, hid, hname, hterminal, hoptional, ofFields?_members h,
    Json.required, Json.withDefault, Value.toString?, Value.toBool?, Option.bind_eq_bind,
    Option.bind_some, Option.pure_def]

end Node

/-! ## Definitions -/

namespace Definition

/-- A definition as it can be held: the conditions and payloads of its nodes can be. -/
def IsStored (d : Definition) : Prop := ∀ n ∈ d.nodes, n.kind.IsStored

theorem ofValue?_toValue {d : Definition} (h : d.IsStored) : ofValue? d.toValue = some d := by
  have hslots : Json.slots? ["name", "nodes"] d.toValue =
      some [some (.string d.name), some (.array (d.nodes.map Node.toValue))] := by
    rw [toValue, Json.slots?_ofMembers]
    rfl
  have hnodes : Value.toListOf? Node.ofValue? (.array (d.nodes.map Node.toValue)) =
      some d.nodes := Value.toListOf?_map fun n hn => Node.ofValue?_toValue (h n hn)
  rw [ofValue?, hslots]
  simp only [Option.bind_eq_bind, Option.bind_some, Json.required, Value.toString?,
    Json.withDefault, hnodes, Option.pure_def]

/-- Every definition is read from its written form. Of its parts, every condition comes back as the
text or the predicate that it was, no text is written as any predicate is, and every path that a
text names is named by its own text. -/
theorem written_forms_come_back (d : Definition) (h : d.IsStored) :
    ofValue? d.toValue = some d ∧
    (∀ c : Condition, c.IsStored → Condition.ofValue? c.toValue = some c) ∧
    (∀ source p, (Condition.text source).toValue ≠ (Condition.tree p).toValue) ∧
    ∀ text, Path.ofText (Path.ofText text).toText = Path.ofText text :=
  ⟨ofValue?_toValue h, fun _ hc => Condition.ofValue?_toValue hc, Condition.text_toValue_ne,
    Path.ofText_toText_ofText⟩

/-- A definition with a node of each kind. One of its rules is a text that looks like a predicate in
structured form, another has a literal that looks like one and a path with blanks. -/
def frontDesk : Definition where
  name := ""
  nodes :=
    [⟨"tidy", none, false, .transform "normalize"⟩,
      ⟨"recall", some "", false, .retrieve defaultQuery⟩,
      ⟨"analysis", some "Mood", false, .analyze "How does this sound?"⟩,
      ⟨"router", none, false, .route
        [⟨.text "\x7b\"op\":\"literal\",\"value\":true\x7d", "reply"⟩,
          ⟨.tree (.not (.any [.all [], .compare .contains (.field (.ofText " input . tags "))
            (.literal (.object [("op", .string "literal"), ("value", .null)]))])), "nowhere"⟩]⟩,
      ⟨"reply", none, true, .generate "Reply."⟩,
      ⟨"alert", none, false, .action "send_sms" .null⟩]

theorem frontDesk_isStored : frontDesk.IsStored := by
  have hliteral : (Value.object [("op", .string "literal"), ("value", .null)]).IsStored := by
    refine .object (by unfold Json.Fields.Ascending; decide) ?_
    simp only [List.forall_mem_cons, List.not_mem_nil, false_implies, implies_true, and_true]
    exact ⟨.string _, .null⟩
  simp only [IsStored, frontDesk, NodeKind.IsStored, Condition.IsStored, List.forall_mem_cons,
    List.not_mem_nil, false_implies, implies_true, and_true, true_and]
  refine ⟨.not (.any ?_), .null⟩
  simp only [List.forall_mem_cons, List.not_mem_nil, false_implies, implies_true, and_true]
  exact ⟨.all nofun, .compare .contains (.field " input . tags ") (.literal hliteral)⟩

/-- The front desk comes back, and its path is written without the blanks. -/
theorem frontDesk_comes_back :
    frontDesk.IsStored ∧ ofValue? frontDesk.toValue = some frontDesk ∧
    (Path.ofText " input . tags ").toText = "input.tags" ∧
    Path.ofText "input.tags" = Path.ofText " input . tags " := by
  have htext : (Path.ofText " input . tags ").toText = "input.tags" := by decide +kernel
  obtain ⟨hback, -, -, hpath⟩ := written_forms_come_back frontDesk frontDesk_isStored
  exact ⟨frontDesk_isStored, hback, htext, htext ▸ hpath " input . tags "⟩

end Definition

end TriageFlow
