import Mathlib.Data.List.Nodup
import Mathlib.Data.List.Perm.Subperm
import TriageFlow.Proofs.Abort
import TriageFlow.Proofs.LegalPath
import TriageFlow.Proofs.Warnings

/-!
Runs without backward jumps. A check that warns of no backward jump has looked at every rule of
every router (`backward_mem_warnings_iff`), so that whatever rule a predicate picks leads forward.
The positions of the executed nodes then increase (`Climbs`), and a run has no more steps than its
definition has nodes.
-/

namespace TriageFlow

open Json (Value)

namespace Definition

variable {d : Definition} {registered : String → Bool}

/-! ## Backward jumps -/

/-- Without the warning of a backward jump every transition goes forward. -/
theorem transition_lt (hforward : ∀ node target, .backward node target ∉ d.warnings) {p q : Nat}
    {n : Node} {x : Except Fault Outcome} (hn : d.nodes[p]? = some n) (hfits : d.Fits n x)
    (hq : d.transition p x = .running q) : p < q := by
  have honward (h : d.advance p = .running q) : p < q := by
    obtain ⟨rfl, -⟩ := advance_eq_running_iff.mp h
    exact Nat.lt_succ_self p
  cases hfits with
  | @jumped rules rule hkind hmem hdeclared =>
    obtain ⟨q', hindex⟩ := Option.isSome_iff_exists.mp hdeclared
    rw [transition_of_jump hindex] at hq
    cases hq
    refine Nat.lt_of_not_le fun hle => hforward n.id rule.target ?_
    exact backward_mem_warnings_iff.mpr
      ⟨p, n, rules, hn, hkind, rfl, ⟨rule, hmem, rfl⟩, q, hle, hindex⟩
  | fellThrough _ => exact honward hq
  | gave o _ =>
    rw [transition_of_output hn] at hq
    split at hq
    · cases hq
    · exact honward hq
  | failed _ _ => cases hq

/-! ## Increasing positions -/

/-- A log of nodes at increasing positions. -/
structure Climbs (d : Definition) (log : List LogEntry) (positions : List Nat) : Prop where
  visited : log.map (fun a => d.indexOf? a.nodeId) = positions.map some
  increasing : positions.Pairwise (· < ·)

namespace Climbs

variable {log : List LogEntry} {positions : List Nat}

theorem snoc (h : d.Climbs log positions) {a : LogEntry} {p : Nat}
    (ha : d.indexOf? a.nodeId = some p) (hbelow : ∀ q ∈ positions, q < p) :
    d.Climbs (log ++ [a]) (positions ++ [p]) := by
  refine ⟨?_, ?_⟩
  · rw [List.map_append, List.map_append, h.visited]
    simp [ha]
  · refine List.pairwise_append.mpr ⟨h.increasing, List.pairwise_singleton _ _, ?_⟩
    intro q hq p' hp'
    rw [List.mem_singleton.mp hp']
    exact hbelow q hq

theorem positions_nodup (h : d.Climbs log positions) : positions.Nodup :=
  h.increasing.imp Nat.ne_of_lt

/-- No node is visited twice. -/
theorem nodup (h : d.Climbs log positions) : (log.map LogEntry.nodeId).Nodup := by
  have hsome : (positions.map some).Nodup :=
    h.positions_nodup.map fun _ _ => Option.some.inj
  refine List.Nodup.of_map d.indexOf? ?_
  rw [List.map_map]
  exact h.visited ▸ hsome

/-- There are not more increasing positions than lie below a bound. -/
theorem length_le (h : d.Climbs log positions) {n : Nat} (hbelow : ∀ q ∈ positions, q < n) :
    log.length ≤ n := by
  have hlength : log.length = positions.length := by
    simpa using congrArg List.length h.visited
  have hsub : positions ⊆ List.range n := fun q hq => List.mem_range.mpr (hbelow q hq)
  have hle := (h.positions_nodup.subperm hsub).length_le
  rw [List.length_range] at hle
  omega

theorem lt_length (h : d.Climbs log positions) {q : Nat} (hq : q ∈ positions) :
    q < d.nodes.length := by
  have hmem : some q ∈ log.map fun a => d.indexOf? a.nodeId := by
    rw [h.visited]
    exact List.mem_map_of_mem hq
  obtain ⟨a, -, ha⟩ := List.mem_map.mp hmem
  exact indexOf?_lt ha

end Climbs

end Definition

/-! ## Runs -/

/-- A registry fails with a text of the node or of a name that it does not hold. -/
theorem Transforms.apply_ne_stepLimit (registry : Transforms) (node name : String) (c : Context)
    (limit : Nat) : registry.apply node name c ≠ .error (.stepLimit limit) := by
  unfold apply
  split
  · simp
  · split
    · simp
    · simp

namespace Engine

variable {σ : Type} {e : Engine σ} {registered : String → Bool} {c : Context} {s t : σ} {r : Run}

/-- No transform fails that comes to be executed in a run. -/
def TransformsSucceed (e : Engine σ) (input : Value) (traceId : String) (s : σ) : Prop :=
  ∀ k p n name, (e.point input traceId s k).1.phase = .running p →
    e.definition.nodes[p]? = some n → n.kind = .transform name →
    ∃ v, e.transforms.apply n.id name (e.point input traceId s k).1.context = .ok v

/-- The nodes of a run on its way lie at increasing positions, all before the one that is due. -/
theorem Reaches.climbs (hd : e.definition.Valid registered)
    (hforward : ∀ node target, .backward node target ∉ e.definition.warnings) (hlog : c.logs = [])
    (h : e.Reaches c s r t) :
    ∃ positions, e.definition.Climbs r.context.logs positions ∧
      ∀ p, r.phase = .running p → ∀ q ∈ positions, q < p := by
  induction h with
  | start =>
    refine ⟨[], ⟨?_, List.Pairwise.nil⟩, by simp⟩
    rw [Run.start_context, hlog]
    rfl
  | @visit r t p n earlier due allowed node ih =>
    obtain ⟨positions, hclimbs, hbelow⟩ := ih
    refine ⟨positions ++ [p], ?_, ?_⟩
    · rw [absorb_logs]
      exact hclimbs.snoc (hd.indexOf?_eq_some_iff.mpr ⟨n, node, rfl⟩) (hbelow p due)
    · intro p' hp' q hq
      have hlt := Definition.transition_lt hforward node (e.execute_fits n r.context t) hp'
      rcases List.mem_append.mp hq with hq | hq
      · exact Nat.lt_trans (hbelow p due q hq) hlt
      · rwa [List.mem_singleton.mp hq]

/-- As many steps as there are nodes are enough. -/
theorem Reaches.steps_lt_length (hd : e.definition.Valid registered)
    (hforward : ∀ node target, .backward node target ∉ e.definition.warnings) (hlog : c.logs = [])
    (h : e.Reaches c s r t) {p : Nat} (hp : r.phase = .running p) :
    r.steps < e.definition.nodes.length := by
  obtain ⟨positions, hclimbs, hbelow⟩ := h.climbs hd hforward hlog
  rw [h.steps_eq hlog]
  exact Nat.lt_of_le_of_lt (hclimbs.length_le (hbelow p hp)) (h.running_lt hp)

/-- With a limit of that many steps only the failure of a transform aborts a run. -/
theorem transform_failed_of_aborted (hd : e.definition.Valid registered)
    (hforward : ∀ node target, .backward node target ∉ e.definition.warnings)
    (henough : e.definition.nodes.length ≤ e.maxSteps) {input : Value} {traceId : String} {q : Nat}
    {fault : Fault} (h : (e.run input traceId s).1.phase = .aborted q fault) :
    ∃ k n name, (e.point input traceId s k).1.phase = .running q ∧
      e.definition.nodes[q]? = some n ∧ n.kind = .transform name ∧
      e.transforms.apply n.id name (e.point input traceId s k).1.context = .error fault := by
  rcases run_phase_aborted_cases h with ⟨k, n, hp, -, hn, hout⟩ | ⟨k, p, hp, hlimit⟩
  · obtain ⟨name, hkind, happly⟩ := execute_eq_error_iff.mp hout
    exact ⟨k, n, name, hp, hn, hkind, happly⟩
  · have hlt := (reaches_point hp).steps_lt_length hd hforward rfl hp
    omega

/-- A run of a definition whose check warns of no backward jump visits its nodes at increasing
positions. It needs no more steps than there are nodes, and within that limit only the failure of a
transform keeps it from being completed. -/
theorem forward_run_climbs (e : Engine σ) {registered : String → Bool} {warnings : List Warning}
    (h : e.definition.check registered = .ok warnings)
    (hforward : ∀ node target, .backward node target ∉ warnings) (input : Value)
    (traceId : String) (s : σ) :
    (∃ positions, e.definition.Climbs (e.run input traceId s).1.context.logs positions) ∧
    ((e.run input traceId s).1.context.logs.map LogEntry.nodeId).Nodup ∧
    (e.run input traceId s).1.steps ≤ e.definition.nodes.length ∧
    (e.definition.nodes.length ≤ e.maxSteps →
      (∀ limit, (e.run input traceId s).1.fault? ≠ some (.stepLimit limit)) ∧
      (e.TransformsSucceed input traceId s → (e.run input traceId s).1.status = .completed)) := by
  obtain ⟨hd, rfl⟩ := Definition.check_eq_ok_iff.mp h
  obtain ⟨r, t, hr, hcontext, hsteps, -⟩ := e.runFrom_cases (.start input traceId) s
  obtain ⟨positions, hclimbs, -⟩ := hr.climbs hd hforward rfl
  refine ⟨⟨positions, ?_⟩, ?_, ?_, fun henough => ⟨?_, ?_⟩⟩
  · rw [run, hcontext]
    exact hclimbs
  · rw [run, hcontext]
    exact hclimbs.nodup
  · rw [run, hsteps, hr.steps_eq rfl]
    exact hclimbs.length_le fun q hq => hclimbs.lt_length hq
  · intro limit hfault
    obtain ⟨q, hq⟩ := Run.fault?_eq_some_iff.mp hfault
    obtain ⟨k, n, name, -, -, -, happly⟩ := transform_failed_of_aborted hd hforward henough hq
    exact e.transforms.apply_ne_stepLimit _ _ _ _ happly
  · intro hsucceed
    refine Run.status_eq_completed_iff.mpr fun q fault hq => ?_
    obtain ⟨k, n, name, hp, hn, hkind, happly⟩ :=
      transform_failed_of_aborted hd hforward henough hq
    obtain ⟨v, hv⟩ := hsucceed k q n name hp hn hkind
    rw [happly] at hv
    cases hv

/-- A router between a transform and two places to go on from, with a rule that leads nowhere. -/
def reception : Engine Unit where
  definition := ⟨"reception", [⟨"copy", none, false, .transform "identity"⟩,
    ⟨"door", none, false, .route [⟨.tree .always, "garden"⟩, ⟨.tree .always, "desk"⟩]⟩,
    ⟨"hall", none, false, .retrieve "visits"⟩, ⟨"desk", none, false, .action "greet" .null⟩]⟩
  collaborators := .none
  transforms := [⟨"identity", fun input _ => .ok input⟩]
  replies := .standard
  maxSteps := 4
  timeout := 0
  now := .standing ⟨0⟩

theorem reception_run_climbs :
    reception.definition.check reception.transforms.contains = .ok [.dangling "door" "garden"] ∧
    (∃ positions, reception.definition.Climbs (reception.run .null "trace" ()).1.context.logs
      positions) ∧
    (reception.run .null "trace" ()).1.context.logs.map LogEntry.nodeId =
      ["copy", "door", "desk"] ∧
    (reception.run .null "trace" ()).1.status = .completed := by
  have hcheck : reception.definition.check reception.transforms.contains =
      .ok [.dangling "door" "garden"] := rfl
  have hsucceed : reception.TransformsSucceed .null "trace" () := by
    intro k p n name _ hn hkind
    have hmem := List.mem_of_getElem? hn
    simp only [reception, List.mem_cons, List.not_mem_nil, or_false] at hmem
    rcases hmem with rfl | rfl | rfl | rfl
    · cases hkind
      exact ⟨_, rfl⟩
    · cases hkind
    · cases hkind
    · cases hkind
  have hrun := forward_run_climbs reception hcheck (by simp) .null "trace" ()
  exact ⟨hcheck, hrun.1, rfl, (hrun.2.2.2 (by decide)).2 hsucceed⟩

end Engine

end TriageFlow
