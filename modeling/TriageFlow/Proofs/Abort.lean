import TriageFlow.Proofs.Reach

/-!
Why a run is aborted. A collaborator that is missing, fails or never answers gives way to a fixed
output, and the check has seen to it that every transform of the definition is registered. What is
left are a registered transform that refuses the record (`FailsAt`) and the step limit (`LimitAt`).
-/

namespace TriageFlow

open Json (Value)

/-- The entry of a failure, with its text. -/
structure LogEntry.IsFailureOf (a : LogEntry) (n : Node) (fault : Fault) : Prop where
  nodeId : a.nodeId = n.id
  status : a.status = .failed
  output : a.output = .object [("error", .string fault.message)]

theorem Phase.ne_aborted {phase : Phase} {p : Nat} (h : phase = .running p) (q : Nat)
    (fault : Fault) : phase ≠ .aborted q fault := by
  rw [h]
  simp

namespace Definition

variable {d : Definition} {p q : Nat} {x : Except Fault Outcome} {fault : Fault}

theorem advance_ne_aborted : d.advance p ≠ .aborted q fault := by
  unfold advance
  split
  · simp
  · simp

theorem firstPhase_ne_aborted : d.firstPhase ≠ .aborted q fault := by
  unfold firstPhase
  split
  · simp
  · simp

/-- Only a failure aborts, and it aborts with its own cause. -/
theorem transition_eq_aborted_iff :
    d.transition p x = .aborted q fault ↔ p = q ∧ x = .error fault := by
  unfold transition
  split
  · simp
  · split
    · simp
    · simp [advance_ne_aborted]
  · simp [advance_ne_aborted]
  · split
    · simp
    · simp [advance_ne_aborted]

end Definition

namespace Transforms

variable {registry : Transforms} {node name : String} {c : Context} {fault : Fault}

/-- A registered transform fails only by itself, and its failure is told of the node. -/
theorem apply_eq_error_iff (h : registry.contains name = true) :
    registry.apply node name c = .error fault ↔
      ∃ t cause, registry.find? name = some t ∧ t.apply c.input c = .error cause ∧
        fault = .node node cause.message := by
  obtain ⟨t, ht⟩ := Option.isSome_iff_exists.mp h
  unfold apply
  rw [ht]
  dsimp only
  cases happly : t.apply c.input c with
  | ok v =>
    refine ⟨fun h => (by cases h), ?_⟩
    rintro ⟨t', cause, ht', hcause, -⟩
    obtain rfl := Option.some.inj ht'
    rw [happly] at hcause
    cases hcause
  | error cause =>
    constructor
    · intro h
      cases h
      exact ⟨t, cause, rfl, happly, rfl⟩
    · rintro ⟨t', cause', ht', hcause, rfl⟩
      obtain rfl := Option.some.inj ht'
      rw [happly] at hcause
      obtain rfl := Except.error.inj hcause
      rfl

end Transforms

namespace Engine

variable {σ : Type}

/-- A registered transform refuses the record of a context at a node. -/
def TransformFails (e : Engine σ) (n : Node) (c : Context) (cause : Fault) : Prop :=
  ∃ name t, n.kind = .transform name ∧ e.transforms.find? name = some t ∧
    t.apply c.input c = .error cause

/-- After so many steps a node is executed whose transform fails. -/
def FailsAt (e : Engine σ) (input : Value) (traceId : String) (s : σ) (k : Nat) (n : Node)
    (cause : Fault) : Prop :=
  ∃ p, (e.point input traceId s k).1.phase = .running p ∧
    (e.point input traceId s k).1.steps < e.maxSteps ∧ e.definition.nodes[p]? = some n ∧
    e.TransformFails n (e.point input traceId s k).1.context cause

/-- After so many steps as many nodes have been executed as the limit allows, and one is due. -/
def LimitAt (e : Engine σ) (input : Value) (traceId : String) (s : σ) (k : Nat) : Prop :=
  ∃ p, (e.point input traceId s k).1.phase = .running p ∧
    (e.point input traceId s k).1.steps = e.maxSteps

variable {e proposed : Engine σ} {registered : String → Bool} {c : Context} {s t : σ} {r : Run}

theorem checked_eq_ok_iff : proposed.checked = .ok e ↔
    proposed = e ∧ ∃ warnings, e.definition.check e.transforms.contains = .ok warnings := by
  unfold checked
  cases hcheck : proposed.definition.check proposed.transforms.contains with
  | error fault =>
    simp only [Except.map, reduceCtorEq, false_iff]
    rintro ⟨rfl, warnings, h⟩
    rw [hcheck] at h
    cases h
  | ok warnings =>
    simp only [Except.map, Except.ok.injEq]
    constructor
    · rintro rfl
      exact ⟨rfl, warnings, hcheck⟩
    · rintro ⟨rfl, -⟩
      rfl

/-! ## Failures of one node -/

/-- Every node but a transform gives an outcome, whatever the collaborators do. -/
theorem exists_outcome_of_not_transform (e : Engine σ) {n : Node}
    (hkind : ∀ name, n.kind ≠ .transform name) (c : Context) (s : σ) :
    ∃ x, (e.execute n c s).outcome = .ok x := by
  cases hout : (e.execute n c s).outcome with
  | ok x => exact ⟨x, rfl⟩
  | error fault =>
    obtain ⟨name, htransform, -⟩ := execute_eq_error_iff.mp hout
    exact absurd htransform (hkind name)

/-- A node of a valid definition fails exactly if its transform refuses the record, and the failure
names the node. -/
theorem execute_eq_error_iff_fails (hd : e.definition.Valid e.transforms.contains) {n : Node}
    (hn : n ∈ e.definition.nodes) {fault : Fault} :
    (e.execute n c s).outcome = .error fault ↔
      ∃ cause, e.TransformFails n c cause ∧ fault = .node n.id cause.message := by
  rw [execute_eq_error_iff]
  constructor
  · rintro ⟨name, hkind, happly⟩
    have hknown := (hd.sound n hn).known name hkind
    obtain ⟨t, cause, ht, hcause, rfl⟩ := (Transforms.apply_eq_error_iff hknown).mp happly
    exact ⟨cause, ⟨name, t, hkind, ht, hcause⟩, rfl⟩
  · rintro ⟨cause, ⟨name, t, hkind, ht, hcause⟩, rfl⟩
    have hknown := (hd.sound n hn).known name hkind
    exact ⟨name, hkind, (Transforms.apply_eq_error_iff hknown).mpr ⟨t, cause, ht, hcause, rfl⟩⟩

/-- The registry of the check is the one that is asked, so no transform is unknown to it. -/
theorem execute_ne_unknownTransform (hd : e.definition.Valid e.transforms.contains) {n : Node}
    (hn : n ∈ e.definition.nodes) (c : Context) (s : σ) (name : String) :
    (e.execute n c s).outcome ≠ .error (.unknownTransform name) := by
  intro h
  obtain ⟨cause, -, hfault⟩ := (execute_eq_error_iff_fails hd hn).mp h
  cases hfault

/-! ## Aborted runs -/

/-- A run on its way is aborted by the failure of the node that was due. -/
theorem Reaches.exists_failure {q : Nat} {fault : Fault} (h : e.Reaches c s r t)
    (hq : r.phase = .aborted q fault) :
    ∃ r₀ t₀ n, e.Reaches c s r₀ t₀ ∧ r₀.phase = .running q ∧ r₀.steps < e.maxSteps ∧
      e.definition.nodes[q]? = some n ∧ (e.execute n r₀.context t₀).outcome = .error fault := by
  cases h with
  | start => exact absurd hq e.definition.firstPhase_ne_aborted
  | @visit r₀ t₀ p n earlier due allowed node =>
    obtain ⟨rfl, hout⟩ := Definition.transition_eq_aborted_iff.mp hq
    exact ⟨r₀, t₀, n, earlier, due, allowed, node, hout⟩

/-- As long as a run is not aborted, no entry of its log is a failure. -/
theorem Reaches.all_success (hlog : c.logs = []) (h : e.Reaches c s r t)
    (hgoing : ∀ q fault, r.phase ≠ .aborted q fault) :
    ∀ a ∈ r.context.logs, a.status = .success := by
  induction h with
  | start => simp [hlog]
  | @visit r t p n earlier due allowed node ih =>
    intro a ha
    rw [absorb_logs] at ha
    rcases List.mem_append.mp ha with ha | ha
    · exact ih (Phase.ne_aborted due) a ha
    · obtain rfl := List.mem_singleton.mp ha
      cases hout : (e.execute n r.context t).outcome with
      | ok x => simp [entryOf, hout, outcomeStatus]
      | error fault =>
        refine absurd ?_ (hgoing p fault)
        exact Definition.transition_eq_aborted_iff.mpr ⟨rfl, hout⟩

/-- A run ends with the first failure, whose entry is the last of its log. -/
theorem Reaches.runFrom_of_failure {p : Nat} {n : Node} {fault : Fault} (h : e.Reaches c s r t)
    (hp : r.phase = .running p) (hlimit : r.steps < e.maxSteps)
    (hn : e.definition.nodes[p]? = some n)
    (hout : (e.execute n r.context t).outcome = .error fault) :
    (e.runFrom c s).1.fault? = some fault ∧
      ∃ a, (e.runFrom c s).1.context.logs = r.context.logs ++ [a] ∧ a.IsFailureOf n fault := by
  have haborted : (e.absorb r p n (e.execute n r.context t)).phase = .aborted p fault := by
    rw [absorb_phase, hout]
    rfl
  have hvisit := h.visit hp hlimit hn
  obtain ⟨hcontext, -, hphase⟩ := hvisit.runFrom_of_settled fun q hq => by
    rw [haborted] at hq
    cases hq
  refine ⟨?_, e.entryOf r n (e.execute n r.context t), ?_, rfl, ?_, ?_⟩
  · unfold Run.fault?
    rw [hphase, haborted]
  · rw [hcontext, absorb_logs]
  · rw [entryOf, hout]
    rfl
  · rw [entryOf, hout]
    rfl

section Ends

variable {input : Value} {traceId : String} {k : Nat}

/-- A run ends with the failure of a transform. -/
theorem FailsAt.run_eq (hd : e.definition.Valid e.transforms.contains) {n : Node} {cause : Fault}
    (h : e.FailsAt input traceId s k n cause) :
    (e.run input traceId s).1.fault? = some (.node n.id cause.message) ∧
      ∃ a, (e.run input traceId s).1.context.logs =
          (e.point input traceId s k).1.context.logs ++ [a] ∧
        a.IsFailureOf n (.node n.id cause.message) := by
  obtain ⟨p, hp, hlimit, hn, hcause⟩ := h
  refine (reaches_point hp).runFrom_of_failure hp hlimit hn ?_
  exact (execute_eq_error_iff_fails hd (List.mem_of_getElem? hn)).mpr ⟨cause, hcause, rfl⟩

/-- A run that has used up its steps ends there, whatever its log holds. -/
theorem LimitAt.run_eq (h : e.LimitAt input traceId s k) :
    (e.run input traceId s).1.fault? = some (.stepLimit e.maxSteps) ∧
      (e.run input traceId s).1.context = (e.point input traceId s k).1.context := by
  obtain ⟨p, hp, hlimit⟩ := h
  obtain ⟨hcontext, -, hphase⟩ := (reaches_point hp).runFrom_of_limit hp hlimit
  refine ⟨?_, hcontext⟩
  unfold Run.fault? run
  rw [hphase]

/-- What has happened before the end of an aborted run. -/
theorem run_phase_aborted_cases {q : Nat} {fault : Fault}
    (h : (e.run input traceId s).1.phase = .aborted q fault) :
    (∃ k n, (e.point input traceId s k).1.phase = .running q ∧
      (e.point input traceId s k).1.steps < e.maxSteps ∧ e.definition.nodes[q]? = some n ∧
      (e.execute n (e.point input traceId s k).1.context
        (e.point input traceId s k).2).outcome = .error fault) ∨
    ∃ k, e.LimitAt input traceId s k := by
  obtain ⟨r, t, hr, -, -, ⟨-, hphase⟩ | ⟨p, hp, hlimit, -⟩⟩ :=
    e.runFrom_cases (.start input traceId) s
  · obtain ⟨r₀, t₀, n, hr₀, hp, hallowed, hn, hout⟩ := hr.exists_failure (hphase.symm.trans h)
    refine .inl ⟨r₀.steps, n, ?_⟩
    rw [hr₀.point_steps]
    exact ⟨hp, hallowed, hn, hout⟩
  · refine .inr ⟨r.steps, p, ?_⟩
    rw [hr.point_steps]
    exact ⟨hp, hlimit⟩

/-- A run of a valid definition has no other faults than these two. -/
theorem run_fault_cases (hd : e.definition.Valid e.transforms.contains) {fault : Fault}
    (h : (e.run input traceId s).1.fault? = some fault) :
    (∃ k n cause, e.FailsAt input traceId s k n cause) ∨ ∃ k, e.LimitAt input traceId s k := by
  obtain ⟨q, hq⟩ := Run.fault?_eq_some_iff.mp h
  rcases run_phase_aborted_cases hq with ⟨k, n, hp, hallowed, hn, hout⟩ | hlimit
  · obtain ⟨cause, hfails, -⟩ :=
      (execute_eq_error_iff_fails hd (List.mem_of_getElem? hn)).mp hout
    exact .inl ⟨k, n, cause, q, hp, hallowed, hn, hfails⟩
  · exact .inr hlimit

end Ends

/-- A run of a checked engine is aborted exactly if a transform of its definition fails or the step
limit is reached with a node still due, and its report and its log tell which. -/
theorem run_aborted_iff (h : proposed.checked = .ok e) (input : Value) (traceId : String) (s : σ) :
    ((e.run input traceId s).1.status = .aborted ↔
      (∃ k n cause, e.FailsAt input traceId s k n cause) ∨ ∃ k, e.LimitAt input traceId s k) ∧
    (∀ k n cause, e.FailsAt input traceId s k n cause →
      (e.run input traceId s).1.fault? = some (.node n.id cause.message) ∧
      ∃ a, (e.run input traceId s).1.context.logs =
          (e.point input traceId s k).1.context.logs ++ [a] ∧
        a.IsFailureOf n (.node n.id cause.message) ∧
        ∀ b ∈ (e.point input traceId s k).1.context.logs, b.status = .success) ∧
    (∀ k, e.LimitAt input traceId s k →
      (e.run input traceId s).1.fault? = some (.stepLimit e.maxSteps) ∧
      (e.run input traceId s).1.context.logs.length = e.maxSteps ∧
      ∀ a ∈ (e.run input traceId s).1.context.logs, a.status = .success) ∧
    (∀ name, (e.run input traceId s).1.fault? ≠ some (.unknownTransform name)) ∧
    (∀ n ∈ e.definition.nodes, ∀ c t name,
      (e.execute n c t).outcome ≠ .error (.unknownTransform name)) ∧
    ∀ n, (∀ name, n.kind ≠ .transform name) → ∀ c t, ∃ x, (e.execute n c t).outcome = .ok x := by
  obtain ⟨rfl, warnings, hcheck⟩ := checked_eq_ok_iff.mp h
  have hd := (Definition.check_eq_ok_iff.mp hcheck).1
  refine ⟨⟨?_, ?_⟩, ?_, ?_, ?_, ?_, ?_⟩
  · intro haborted
    obtain ⟨fault, hfault⟩ := Run.status_eq_aborted_iff.mp haborted
    exact run_fault_cases hd hfault
  · rintro (⟨k, n, cause, hfails⟩ | ⟨k, hlimit⟩)
    · exact Run.status_eq_aborted_iff.mpr ⟨_, (hfails.run_eq hd).1⟩
    · exact Run.status_eq_aborted_iff.mpr ⟨_, hlimit.run_eq.1⟩
  · intro k n cause hfails
    obtain ⟨hfault, a, hlogs, ha⟩ := hfails.run_eq hd
    obtain ⟨p, hp, -⟩ := hfails
    exact ⟨hfault, a, hlogs, ha, (reaches_point hp).all_success rfl (Phase.ne_aborted hp)⟩
  · intro k hlimit
    obtain ⟨hfault, hcontext⟩ := hlimit.run_eq
    obtain ⟨p, hp, hsteps⟩ := hlimit
    rw [hcontext]
    refine ⟨hfault, ?_, (reaches_point hp).all_success rfl (Phase.ne_aborted hp)⟩
    rw [← (reaches_point hp).steps_eq rfl, hsteps]
  · intro name hfault
    rcases run_fault_cases hd hfault with ⟨k, n, cause, hfails⟩ | ⟨k, hlimit⟩
    · rw [(hfails.run_eq hd).1] at hfault
      cases hfault
    · rw [hlimit.run_eq.1] at hfault
      cases hfault
  · intro n hn c t name
    exact execute_ne_unknownTransform hd hn c t name
  · intro n hkind c t
    exact proposed.exists_outcome_of_not_transform hkind c t

/-- An engine that stamps the record again and again. -/
def restamp : Engine Unit where
  definition := ⟨"restamp", [⟨"look", none, false, .retrieve "earlier"⟩,
    ⟨"stamp", none, false, .transform "normalize"⟩,
    ⟨"again", none, false, .route [⟨.tree .always, "stamp"⟩]⟩]⟩
  collaborators := .none
  transforms := .builtIn (.standing ⟨0⟩)
  replies := .standard
  maxSteps := 4
  timeout := 0
  now := .standing ⟨0⟩

/-- A record that is no object makes the transform fail, and any other one exhausts the limit. -/
theorem restamp_aborted :
    restamp.checked = .ok restamp ∧
    (restamp.run .null "trace" ()).1.fault? =
      some (.node "stamp" "Transform normalize failed: expected an object, got null") ∧
    (restamp.run .null "trace" ()).1.context.logs.map LogEntry.status = [.success, .failed] ∧
    (restamp.run (.object []) "trace" ()).1.fault? = some (.stepLimit 4) ∧
    (restamp.run (.object []) "trace" ()).1.context.logs.length = 4 := by
  have hchecked : restamp.checked = .ok restamp := rfl
  have hfails : restamp.FailsAt .null "trace" () 1 ⟨"stamp", none, false, .transform "normalize"⟩
      (.transform "normalize" "expected an object, got null") :=
    ⟨1, rfl, by decide, rfl, "normalize", _, rfl, rfl, rfl⟩
  have hlimit : restamp.LimitAt (.object []) "trace" () 4 := ⟨2, rfl, rfl⟩
  have hnull := run_aborted_iff hchecked .null "trace" ()
  have hobject := run_aborted_iff hchecked (.object []) "trace" ()
  exact ⟨hchecked, (hnull.2.1 _ _ _ hfails).1, rfl, (hobject.2.2.1 _ hlimit).1,
    (hobject.2.2.1 _ hlimit).2.1⟩

end Engine

end TriageFlow
