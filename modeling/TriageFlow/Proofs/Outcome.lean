import TriageFlow.Engine.Run
import TriageFlow.Proofs.RouteScan
import TriageFlow.Proofs.Validity

/-!
What one node can come to (`execute_fits`): a router jumps to a declared target of one of its rules
or falls through, only a transform can fail, and every other node gives an output. The
collaborators have no say in it.
-/

namespace TriageFlow

/-- What the execution of a node can come to. -/
inductive Definition.Fits (d : Definition) (n : Node) : Except Fault Outcome → Prop
  | jumped {rules : List RouteRule} {rule : RouteRule} (kind : n.kind = .route rules)
      (mem : rule ∈ rules) (declared : d.declares rule.target = true) :
      Fits d n (.ok (.jump (some rule.target)))
  | fellThrough {rules : List RouteRule} (kind : n.kind = .route rules) :
      Fits d n (.ok (.jump none))
  | gave (output : Output) (kind : n.isRouter = false) : Fits d n (.ok (.output output))
  | failed {name : String} (fault : Fault) (kind : n.kind = .transform name) :
      Fits d n (.error fault)

namespace Engine

variable {σ : Type}

theorem retrieve_outcome (e : Engine σ) (node query : String) (c : Context) (s : σ) :
    ∃ text, (e.retrieve node query c s).outcome = .ok (.output (.recalled text)) := by
  unfold retrieve
  split
  · exact ⟨_, rfl⟩
  · dsimp only
    split
    · exact ⟨_, rfl⟩
    · exact ⟨_, rfl⟩

theorem analyze_outcome (e : Engine σ) (node prompt : String) (c : Context) (s : σ) :
    ∃ a, (e.analyze node prompt c s).outcome = .ok (.output (.analysis a)) := by
  unfold analyze
  split
  · exact ⟨_, rfl⟩
  · dsimp only
    split
    · exact ⟨_, rfl⟩
    · exact ⟨_, rfl⟩
    · exact ⟨_, rfl⟩

theorem generate_outcome (e : Engine σ) (node prompt : String) (c : Context) (s : σ) :
    ∃ text, (e.generate node prompt c s).outcome = .ok (.output (.generation text)) := by
  unfold generate
  split
  · exact ⟨_, rfl⟩
  · dsimp only
    split
    · exact ⟨_, rfl⟩
    · exact ⟨_, rfl⟩

theorem act_outcome (e : Engine σ) (action : String) (payload : Json.Value) (c : Context) (s : σ) :
    (e.act action payload c s).outcome = .ok (.output (.action ⟨action⟩)) := by
  unfold act
  split
  · rfl
  · rfl

/-- Only the kind of a node decides what it can come to, whatever the collaborators do. -/
theorem execute_fits (e : Engine σ) (n : Node) (c : Context) (s : σ) :
    e.definition.Fits n (e.execute n c s).outcome := by
  have plain (h : n.isRouter = false) {x : Except Fault Outcome} {o : Output}
      (hx : x = .ok (.output o)) : e.definition.Fits n x := by
    rw [hx]
    exact .gave o h
  unfold execute
  split
  · next name hkind =>
    dsimp only
    cases happly : e.transforms.apply n.id name c with
    | ok v => exact plain (by simp [Node.isRouter, hkind]) rfl
    | error fault => exact .failed fault hkind
  · next query hkind =>
    obtain ⟨text, h⟩ := e.retrieve_outcome n.id query c s
    exact plain (by simp [Node.isRouter, hkind]) h
  · next prompt hkind =>
    obtain ⟨a, h⟩ := e.analyze_outcome n.id prompt c s
    exact plain (by simp [Node.isRouter, hkind]) h
  · next prompt hkind =>
    obtain ⟨text, h⟩ := e.generate_outcome n.id prompt c s
    exact plain (by simp [Node.isRouter, hkind]) h
  · next rules hkind =>
    unfold route
    dsimp only
    cases htarget : (RouteDecision.ofRules rules c e.definition.declares).target with
    | none => exact .fellThrough hkind
    | some target =>
      obtain ⟨i, rule, ⟨hmeets, hends⟩, rfl⟩ := RouteDecision.target_scan_eq_some_iff.mp htarget
      exact .jumped hkind (List.mem_of_getElem? hmeets.listed) hends.2
  · next action payload hkind =>
    exact plain (by simp [Node.isRouter, hkind]) (e.act_outcome action payload c s)

theorem execute_of_transform (e : Engine σ) {n : Node} {name : String}
    (h : n.kind = .transform name) (c : Context) (s : σ) :
    (e.execute n c s).outcome =
      (e.transforms.apply n.id name c).map fun v => .output (.transform v) := by
  unfold execute
  rw [h]

/-- The failure of a node is that of its transform. -/
theorem execute_eq_error_iff {e : Engine σ} {n : Node} {c : Context} {s : σ} {fault : Fault} :
    (e.execute n c s).outcome = .error fault ↔
      ∃ name, n.kind = .transform name ∧ e.transforms.apply n.id name c = .error fault := by
  have hmap (name : String) (hkind : n.kind = .transform name) :
      (e.execute n c s).outcome = .error fault ↔
        e.transforms.apply n.id name c = .error fault := by
    rw [e.execute_of_transform hkind]
    cases e.transforms.apply n.id name c <;> simp [Except.map]
  constructor
  · intro h
    have hfits := e.execute_fits n c s
    rw [h] at hfits
    cases hfits with
    | @failed name _ hkind => exact ⟨name, hkind, (hmap name hkind).mp h⟩
  · rintro ⟨name, hkind, happly⟩
    exact (hmap name hkind).mpr happly

end Engine

end TriageFlow
