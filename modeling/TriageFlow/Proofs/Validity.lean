import TriageFlow.Workflow.Check

/-!
What the check of a definition ensures. A definition passes exactly when it is valid
(`check_eq_ok_iff`): each node is sound by itself and no two nodes share an id. In a valid
definition an id and a position determine each other (`indexOf?_eq_some_iff`), so that a log, which
holds ids only, tells the positions of the nodes that were executed.
-/

namespace TriageFlow

namespace Node

/-- Whether a node picks the next node instead of giving an output. -/
def isRouter (n : Node) : Bool :=
  match n.kind with
  | .route _ => true
  | _ => false

/-- A node that can be addressed and that names a registered transform, if it names one. -/
structure Sound (registered : String → Bool) (n : Node) : Prop where
  nonblank : Text.trim n.id.toList ≠ []
  undotted : '.' ∉ n.id.toList
  unreserved : n.id ∉ Context.reservedKeys
  known : ∀ name, n.kind = .transform name → registered name = true

theorem isRouter_eq_true_iff {n : Node} : n.isRouter = true ↔ ∃ rules, n.kind = .route rules := by
  unfold isRouter
  cases n.kind <;> simp

/-- Nothing is wrong with a node exactly when it is sound and its id is new. -/
theorem fault?_eq_none_iff {registered : String → Bool} {earlier : List String} {n : Node} :
    n.fault? registered earlier = none ↔ n.Sound registered ∧ n.id ∉ earlier := by
  have refused (c : Prop) [Decidable c] (fault : Fault) (later : Option Fault) :
      (if c then some fault else later) = none ↔ ¬c ∧ later = none := by
    by_cases hc : c <;> simp [hc]
  unfold fault?
  rw [refused, refused, refused, refused]
  constructor
  · rintro ⟨hblank, hdot, hreserved, hearlier, hrest⟩
    refine ⟨⟨by simpa using hblank, by simpa using hdot, by simpa using hreserved, ?_⟩,
      by simpa using hearlier⟩
    intro name hkind
    simpa [hkind] using hrest
  · rintro ⟨⟨hblank, hdot, hreserved, hknown⟩, hearlier⟩
    refine ⟨by simpa using hblank, by simpa using hdot, by simpa using hreserved,
      by simpa using hearlier, ?_⟩
    split
    · next name hkind => rw [if_pos (hknown name hkind)]
    · rfl

end Node

namespace Definition

/-- A definition whose runs can be told from their logs. -/
structure Valid (d : Definition) (registered : String → Bool) : Prop where
  sound : ∀ n ∈ d.nodes, n.Sound registered
  distinct : (d.nodes.map Node.id).Nodup

theorem firstFault?_eq_none_iff {registered : String → Bool} {nodes : List Node}
    {earlier : List String} :
    firstFault? registered earlier nodes = none ↔
      (∀ n ∈ nodes, n.Sound registered) ∧ (nodes.map Node.id).Nodup ∧
        ∀ n ∈ nodes, n.id ∉ earlier := by
  induction nodes generalizing earlier with
  | nil => simp [firstFault?]
  | cons n rest ih =>
    cases hn : n.fault? registered earlier with
    | some fault =>
      have hbad : ¬(n.Sound registered ∧ n.id ∉ earlier) := by
        rw [← Node.fault?_eq_none_iff, hn]
        simp
      simp only [firstFault?, hn, reduceCtorEq, false_iff]
      rintro ⟨hsound, -, hearlier⟩
      exact hbad ⟨hsound n List.mem_cons_self, hearlier n List.mem_cons_self⟩
    | none =>
      obtain ⟨hsound, hnew⟩ := Node.fault?_eq_none_iff.mp hn
      simp only [firstFault?, hn, ih, List.map_cons, List.nodup_cons, List.mem_map,
        List.mem_append, List.mem_singleton, List.forall_mem_cons]
      constructor
      · rintro ⟨hrest, hdistinct, hlater⟩
        refine ⟨⟨hsound, hrest⟩, ⟨?_, hdistinct⟩, hnew, fun m hm h => hlater m hm (.inl h)⟩
        rintro ⟨m, hm, hid⟩
        exact hlater m hm (.inr hid)
      · rintro ⟨⟨-, hrest⟩, ⟨hfirst, hdistinct⟩, -, hlater⟩
        refine ⟨hrest, hdistinct, fun m hm h => ?_⟩
        rcases h with h | h
        · exact hlater m hm h
        · exact hfirst ⟨m, hm, h⟩

/-- Nothing is wrong with any node exactly when the definition is valid. -/
theorem firstFault?_nodes_eq_none_iff {d : Definition} {registered : String → Bool} :
    firstFault? registered [] d.nodes = none ↔ d.Valid registered := by
  rw [firstFault?_eq_none_iff]
  exact ⟨fun h => ⟨h.1, h.2.1⟩, fun h => ⟨h.sound, h.distinct, by simp⟩⟩

/-- A definition passes its check exactly when it is valid, and then the check gives its
warnings. -/
theorem check_eq_ok_iff {d : Definition} {registered : String → Bool} {warnings : List Warning} :
    d.check registered = .ok warnings ↔ d.Valid registered ∧ d.warnings = warnings := by
  unfold check
  cases h : firstFault? registered [] d.nodes with
  | none => simp [← firstFault?_nodes_eq_none_iff, h]
  | some fault => simp [← firstFault?_nodes_eq_none_iff, h]

/-! ## Ids and positions -/

/-- A position found for an id is that of a node of this id. -/
theorem getElem?_of_indexOf? {d : Definition} {id : String} {p : Nat} (h : d.indexOf? id = some p) :
    ∃ n, d.nodes[p]? = some n ∧ n.id = id := by
  obtain ⟨hp, hid, -⟩ := List.findIdx?_eq_some_iff_getElem.mp h
  exact ⟨d.nodes[p], List.getElem?_eq_getElem hp, by simpa using hid⟩

theorem indexOf?_lt {d : Definition} {id : String} {p : Nat} (h : d.indexOf? id = some p) :
    p < d.nodes.length := by
  obtain ⟨n, hn, -⟩ := getElem?_of_indexOf? h
  exact (List.getElem?_eq_some_iff.mp hn).1

namespace Valid

variable {d : Definition} {registered : String → Bool}

/-- Two nodes of one id stand at one position. -/
theorem position_inj (hd : d.Valid registered) {p q : Nat} {n m : Node}
    (hn : d.nodes[p]? = some n) (hm : d.nodes[q]? = some m) (hid : n.id = m.id) : p = q := by
  have hp : (d.nodes.map Node.id)[p]? = some n.id := by simp [hn]
  have hq : (d.nodes.map Node.id)[q]? = some n.id := by simp [hm, hid]
  obtain ⟨hlt, -⟩ := List.getElem?_eq_some_iff.mp hp
  exact (List.getElem?_inj hlt hd.distinct).mp (hp.trans hq.symm)

theorem node_inj (hd : d.Valid registered) {n m : Node} (hn : n ∈ d.nodes) (hm : m ∈ d.nodes)
    (hid : n.id = m.id) : n = m := by
  obtain ⟨p, hp⟩ := List.mem_iff_getElem?.mp hn
  obtain ⟨q, hq⟩ := List.mem_iff_getElem?.mp hm
  have hpq := hd.position_inj hp hq hid
  subst hpq
  exact Option.some.inj (hp.symm.trans hq)

/-- The position of an id is that of the node which bears it. -/
theorem indexOf?_eq_some_iff (hd : d.Valid registered) {id : String} {p : Nat} :
    d.indexOf? id = some p ↔ ∃ n, d.nodes[p]? = some n ∧ n.id = id := by
  refine ⟨getElem?_of_indexOf?, ?_⟩
  rintro ⟨n, hn, hid⟩
  cases hq : d.indexOf? id with
  | none =>
    have hnone := List.findIdx?_eq_none_iff.mp hq n (List.mem_of_getElem? hn)
    simp [hid] at hnone
  | some q =>
    obtain ⟨m, hm, hmid⟩ := getElem?_of_indexOf? hq
    rw [hd.position_inj hm hn (hmid.trans hid.symm)]

end Valid

end Definition

end TriageFlow
