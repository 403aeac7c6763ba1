import TriageFlow.Proofs.Events
import TriageFlow.Proofs.RouteScan
import TriageFlow.Proofs.Warnings

/-!
The warnings of a definition foretell its runs. The check reads every rule text once and looks up
every target, a run reads a text whenever a scan comes to it, and the two agree: a run tells of a
text that cannot be read, of a target that is not declared and of a jump back only where the check
has warned of it (`Reaches.foretold`), and a text that the check has warned of is told of by every
scan that comes to it and picked by none (`execute_tells_fault`).
-/

namespace TriageFlow

open Json (Value)

/-- What a run may tell of routes, by the warnings of its definition. -/
def EventKind.Foretold (d : Definition) (warnings : List Warning) : EventKind → Prop
  | .ruleFailed node index (.ruleText cause) =>
    .invalidRule node index (.ruleText cause) ∈ warnings
  | .danglingTarget node target => .dangling node target ∈ warnings
  | .routeTaken node target => ∀ p q, d.indexOf? node = some p → d.indexOf? target = some q →
      q ≤ p → .backward node target ∈ warnings
  | _ => True

namespace Engine

variable {σ : Type} {e : Engine σ} {registered : String → Bool} {n : Node}
  {rules : List RouteRule} {rule : RouteRule} {i : Nat} {c : Context} {s t : σ} {r : Run}

theorem execute_of_route (e : Engine σ) (hkind : n.kind = .route rules) (c : Context) (s : σ) :
    e.execute n c s = e.route n.id rules c s := by
  unfold execute
  rw [hkind]

/-- A router tells the fault of a rule exactly if its scan comes to the rule and the rule fails. -/
theorem ruleFailed_mem_route_iff {fault : Fault} :
    .ruleFailed n.id i fault ∈ (e.route n.id rules c s).events ↔
      ∃ rule, RouteDecision.Meets c e.definition.declares rules i rule ∧
        rule.condition.test c = .error fault := by
  have hevents : (e.route n.id rules c s).events =
      (RouteDecision.ofRules rules c e.definition.declares).diagnostics.map
        (diagnosticEvent n.id) := rfl
  rw [hevents, List.mem_map]
  unfold RouteDecision.ofRules
  constructor
  · rintro ⟨diagnostic, hmem, htold⟩
    cases diagnostic with
    | dangling j target => cases htold
    | failed j cause =>
      cases htold
      obtain ⟨j, rule, hmeets, hdiagnosis⟩ := RouteDecision.mem_diagnostics_scan_iff.mp hmem
      obtain ⟨hindex, htest⟩ := RouteDecision.diagnosis?_eq_failed_iff.mp hdiagnosis
      rw [Nat.zero_add] at hindex
      exact ⟨rule, hindex ▸ hmeets, htest⟩
  · rintro ⟨rule, hmeets, htest⟩
    refine ⟨.failed i fault, RouteDecision.mem_diagnostics_scan_iff.mpr ⟨i, rule, hmeets, ?_⟩, rfl⟩
    exact RouteDecision.diagnosis?_eq_failed_iff.mpr ⟨(Nat.zero_add i).symm, htest⟩

/-- A router tells of a target that is missing only if one of its rules names it. -/
theorem danglingTarget_mem_route {target : String}
    (h : .danglingTarget n.id target ∈ (e.route n.id rules c s).events) :
    ∃ rule ∈ rules, rule.target = target ∧ e.definition.declares rule.target = false := by
  obtain ⟨diagnostic, hmem, htold⟩ := List.mem_map.mp h
  cases diagnostic with
  | failed j cause => cases htold
  | dangling j target =>
    cases htold
    obtain ⟨k, rule, hmeets, hdiagnosis⟩ := RouteDecision.mem_diagnostics_scan_iff.mp hmem
    obtain ⟨-, htarget, -, hmissing⟩ := RouteDecision.diagnosis?_eq_dangling_iff.mp hdiagnosis
    exact ⟨rule, List.mem_of_getElem? hmeets.listed, htarget.symm, hmissing⟩

/-- The fault of a text that cannot be read is told whenever a scan comes to it, and it is the only
one told of it. -/
theorem execute_tells_fault (hkind : n.kind = .route rules) {fault : Fault}
    (hfault : rule.condition.predicate = .error fault)
    (hmeets : RouteDecision.Meets c e.definition.declares rules i rule) {told : Fault} :
    .ruleFailed n.id i told ∈ (e.execute n c s).events ↔ told = fault := by
  rw [execute_of_route e hkind, ruleFailed_mem_route_iff]
  have htest := Condition.test_of_predicate_eq_error hfault c
  constructor
  · rintro ⟨other, hother, htold⟩
    have hsame : other = rule := Option.some.inj (hother.listed.symm.trans hmeets.listed)
    rw [hsame, htest] at htold
    exact (Except.error.inj htold).symm
  · rintro rfl
    exact ⟨rule, hmeets, htest⟩

/-- What a router tells on its way is foretold. -/
theorem route_foretold (hd : e.definition.Valid registered) (hn : n ∈ e.definition.nodes)
    (hkind : n.kind = .route rules) :
    ∀ kind ∈ (e.route n.id rules c s).events,
      kind.Foretold e.definition e.definition.warnings := by
  intro kind hmem
  rcases e.route_events n.id rules c s kind hmem with ⟨i, fault, rfl⟩ | ⟨target, rfl⟩
  · cases fault with
    | ruleText cause =>
      obtain ⟨rule, hmeets, htest⟩ := ruleFailed_mem_route_iff.mp hmem
      exact (hd.invalidRule_mem_warnings_iff hn hkind hmeets.listed).mpr
        (Condition.test_eq_ruleText_iff.mp htest)
    | _ => exact trivial
  · obtain ⟨rule, hrule, rfl, hmissing⟩ := danglingTarget_mem_route hmem
    exact Definition.dangling_mem_warnings hn hkind hrule hmissing

/-- What is told of the outcome of a node is foretold. -/
theorem outcomeEvents_foretold (hd : e.definition.Valid registered) (hn : n ∈ e.definition.nodes)
    {x : Except Fault Outcome} (hfits : e.definition.Fits n x) (elapsed : Nat) :
    ∀ kind ∈ outcomeEvents n.id elapsed x, kind.Foretold e.definition e.definition.warnings := by
  intro kind hmem
  cases hfits with
  | @jumped rules rule hkind hrule hdeclared =>
    rw [List.mem_singleton.mp hmem]
    intro p q hp hq hle
    obtain ⟨m, hm, hid⟩ := hd.indexOf?_eq_some_iff.mp hp
    obtain rfl := hd.node_inj (List.mem_of_getElem? hm) hn hid
    exact Definition.backward_mem_warnings_iff.mpr
      ⟨p, m, rules, hm, hkind, rfl, ⟨rule, hrule, rfl⟩, q, hle, hq⟩
  | fellThrough hkind => cases hmem
  | gave output hplain =>
    rw [List.mem_singleton.mp hmem]
    exact trivial
  | failed fault hkind =>
    rw [List.mem_singleton.mp hmem]
    exact trivial

/-- What the execution of a node tells is foretold. -/
theorem execute_foretold (hd : e.definition.Valid registered) (hn : n ∈ e.definition.nodes) :
    ∀ kind ∈ (e.execute n c s).events, kind.Foretold e.definition e.definition.warnings := by
  intro kind hmem
  have htold := e.execute_mayTell n c s
  have ofGateway (h : (e.execute n c s).events = [] ∨
      ∃ service fault, (e.execute n c s).events = [.degraded n.id service fault]) :
      kind.Foretold e.definition e.definition.warnings := by
    rcases h with h | ⟨service, fault, h⟩
    · rw [h] at hmem
      cases hmem
    · rw [h] at hmem
      rw [List.mem_singleton.mp hmem]
      exact trivial
  cases hkind : n.kind with
  | route rules =>
    rw [execute_of_route e hkind] at hmem
    exact route_foretold hd hn hkind kind hmem
  | retrieve query => exact ofGateway (by simpa only [Node.MayTell, hkind] using htold)
  | analyze prompt => exact ofGateway (by simpa only [Node.MayTell, hkind] using htold)
  | generate prompt => exact ofGateway (by simpa only [Node.MayTell, hkind] using htold)
  | transform name => exact ofGateway (.inl (by simpa only [Node.MayTell, hkind] using htold))
  | action action payload =>
    exact ofGateway (.inl (by simpa only [Node.MayTell, hkind] using htold))

/-- Whatever a run on its way tells of routes is foretold. -/
theorem Reaches.foretold (hd : e.definition.Valid registered) (h : e.Reaches c s r t) :
    ∀ event ∈ r.events, event.kind.Foretold e.definition e.definition.warnings := by
  induction h with
  | start =>
    intro event hmem
    rw [List.mem_singleton.mp hmem]
    exact trivial
  | @visit r t p n earlier due allowed node ih =>
    intro event hmem
    have hn := List.mem_of_getElem? node
    rcases List.mem_append.mp hmem with hmem | hmem
    · exact ih event hmem
    · obtain ⟨kind, hkind, rfl⟩ := List.mem_map.mp hmem
      rcases List.mem_append.mp hkind with hkind | hkind
      · exact execute_foretold hd hn kind hkind
      · exact outcomeEvents_foretold hd hn (e.execute_fits n r.context t) _ kind hkind

/-- Where a router is due, the next point of the run adds what its execution tells. -/
theorem point_succ_events {input : Value} {traceId : String} {k p : Nat}
    (hp : (e.point input traceId s k).1.phase = .running p) (hn : e.definition.nodes[p]? = some n)
    (hlimit : (e.point input traceId s k).1.steps < e.maxSteps) :
    ∃ closing, (e.point input traceId s (k + 1)).1.events = (e.point input traceId s k).1.events ++
      ((e.execute n (e.point input traceId s k).1.context (e.point input traceId s k).2).events ++
        closing).map (Event.mk traceId) := by
  have htrace : (e.point input traceId s k).1.context.traceId = traceId :=
    (reaches_point hp).origin.2.2
  have hnext : e.point input traceId s (k + 1) =
      e.step (e.point input traceId s k).1 (e.point input traceId s k).2 := drive_succ' k
  rw [hnext, step_of_node hp hlimit hn]
  exact ⟨_, congrArg _ (congrArg (fun id => List.map (Event.mk id) _) htrace)⟩

theorem foretold_of_tellsSave {d : Definition} {warnings : List Warning} {kind : EventKind}
    (h : kind.tellsSave = true) : kind.Foretold d warnings := by
  cases kind with
  | memorySaved => exact trivial
  | memorySaveFailed fault => exact trivial
  | _ => cases h

/-- Whatever a finished run tells of routes is foretold. -/
theorem runFrom_foretold (hd : e.definition.Valid registered) (c : Context) (s : σ) :
    ∀ event ∈ (e.runFrom c s).1.events,
      event.kind.Foretold e.definition e.definition.warnings := by
  intro event hmem
  obtain ⟨r, t, phase, hr, hrun⟩ := e.runFrom_eq_finish c s
  obtain ⟨saved, hsaved, hevents⟩ := e.finish_events { r with phase := phase } t
  rw [hrun, hevents] at hmem
  rcases List.mem_append.mp hmem with hmem | hmem
  · exact hr.foretold hd event hmem
  · obtain ⟨kind, hkind, rfl⟩ := List.mem_map.mp hmem
    rcases List.mem_append.mp hkind with hkind | hkind
    · unfold TellsSave at hsaved
      split at hsaved
      · obtain ⟨told, rfl, htold⟩ := hsaved
        rw [List.mem_singleton.mp hkind]
        exact foretold_of_tellsSave htold
      · subst hsaved
        cases hkind
    · rw [List.mem_singleton.mp hkind]
      exact trivial

/-- What the warning of a fault means for the rule at an index of a router. -/
structure Forewarned (e : Engine σ) (n : Node) (rules : List RouteRule) (i : Nat)
    (rule : RouteRule) (fault : Fault) : Prop where
  unreadable : ∃ source cause, rule.condition = .text source ∧
    Predicate.ofText source = .error cause ∧ fault = .ruleText cause
  /-- In no context is the rule picked, and what a scan goes to is the target of another one. -/
  passedOver : ∀ c, ¬RouteDecision.Picks c e.definition.declares rules i rule ∧
    ∀ target, (RouteDecision.ofRules rules c e.definition.declares).target = some target →
      ∃ j other, j ≠ i ∧ RouteDecision.Picks c e.definition.declares rules j other ∧
        other.target = target
  /-- Every scan that comes to the rule tells of this fault, and of no other one. -/
  told : ∀ c s, RouteDecision.Meets c e.definition.declares rules i rule →
    ∀ cause, .ruleFailed n.id i cause ∈ (e.execute n c s).events ↔ cause = fault
  /-- So does every step of a run that does. -/
  toldInRuns : ∀ input traceId s k p, (e.point input traceId s k).1.phase = .running p →
    e.definition.nodes[p]? = some n → (e.point input traceId s k).1.steps < e.maxSteps →
    RouteDecision.Meets (e.point input traceId s k).1.context e.definition.declares rules i rule →
    ∃ kinds : List EventKind, (e.point input traceId s (k + 1)).1.events =
        (e.point input traceId s k).1.events ++ kinds.map (Event.mk traceId) ∧
      .ruleFailed n.id i fault ∈ kinds

theorem forewarned_of_predicate_eq_error (hkind : n.kind = .route rules)
    (hrule : rules[i]? = some rule) {fault : Fault}
    (hfault : rule.condition.predicate = .error fault) : e.Forewarned n rules i rule fault := by
  have hnot (c : Context) : ¬RouteDecision.Picks c e.definition.declares rules i rule := by
    rintro ⟨-, htest, -⟩
    rw [Condition.test_of_predicate_eq_error hfault] at htest
    cases htest
  refine ⟨Condition.exists_of_predicate_eq_error hfault, fun c => ⟨hnot c, ?_⟩, ?_, ?_⟩
  · intro target htarget
    obtain ⟨j, other, hpicks, rfl⟩ := RouteDecision.target_scan_eq_some_iff.mp htarget
    refine ⟨j, other, ?_, hpicks, rfl⟩
    rintro rfl
    obtain rfl := Option.some.inj (hpicks.1.listed.symm.trans hrule)
    exact hnot c hpicks
  · intro c s hmeets cause
    exact execute_tells_fault hkind hfault hmeets
  · intro input traceId s k p hp hn hlimit hmeets
    obtain ⟨closing, hevents⟩ := point_succ_events hp hn hlimit
    exact ⟨_, hevents,
      List.mem_append_left _ ((execute_tells_fault hkind hfault hmeets).mpr rfl)⟩

/-- The warnings of a definition that passes its check foretell its runs. A rule text that they call
invalid is told of by every scan that comes to it and picked by none, every other rule can be read,
and a run that tells of a text that cannot be read, of a missing target or of a jump back tells of
one that they name; without warnings it tells of neither of the first two. -/
theorem warnings_foretell_runs (e : Engine σ) {registered : String → Bool}
    {warnings : List Warning} (h : e.definition.check registered = .ok warnings) :
    (∀ n ∈ e.definition.nodes, ∀ rules i rule, n.kind = .route rules → rules[i]? = some rule →
      (∀ fault, .invalidRule n.id i fault ∈ warnings → e.Forewarned n rules i rule fault) ∧
      ((∀ fault, .invalidRule n.id i fault ∉ warnings) →
        ∀ c cause, rule.condition.test c ≠ .error (.ruleText cause))) ∧
    ∀ input traceId s,
      (∀ event ∈ (e.run input traceId s).1.events, event.kind.Foretold e.definition warnings) ∧
      (warnings = [] → ∀ event ∈ (e.run input traceId s).1.events,
        (∀ node target, event.kind ≠ .danglingTarget node target) ∧
        ∀ node index cause, event.kind ≠ .ruleFailed node index (.ruleText cause)) := by
  obtain ⟨hd, rfl⟩ := Definition.check_eq_ok_iff.mp h
  refine ⟨?_, fun input traceId s => ?_⟩
  · intro n hn rules i rule hkind hrule
    have hwarned (fault : Fault) : .invalidRule n.id i fault ∈ e.definition.warnings ↔
        rule.condition.predicate = .error fault :=
      hd.invalidRule_mem_warnings_iff hn hkind hrule
    constructor
    · intro fault hmem
      exact forewarned_of_predicate_eq_error hkind hrule ((hwarned fault).mp hmem)
    · intro hsilent c cause htest
      exact hsilent _ ((hwarned _).mpr (Condition.test_eq_ruleText_iff.mp htest))
  · have hforetold := e.runFrom_foretold hd (.start input traceId) s
    refine ⟨hforetold, fun hnone event hevent => ?_⟩
    have hevent := hforetold event hevent
    rw [hnone] at hevent
    constructor
    · intro node target hkind
      rw [hkind] at hevent
      exact List.not_mem_nil hevent
    · intro node index cause hkind
      rw [hkind] at hevent
      exact List.not_mem_nil hevent

/-- A gate with a rule that cannot be read, one that leads nowhere and one that leads back. -/
def gate : Engine Unit where
  definition := ⟨"gate", [
    ⟨"gate", none, false,
      .route [⟨.text "(", "yard"⟩, ⟨.tree .always, "moat"⟩, ⟨.text "content", "gate"⟩]⟩,
    ⟨"yard", none, true, .action "greet" .null⟩]⟩
  collaborators := .none
  transforms := []
  replies := .standard
  maxSteps := 1
  timeout := 0
  now := .standing ⟨0⟩

/-- The unreadable rule is passed over with its fault, the second names no node, and the third is
taken back to the gate. -/
theorem gate_warnings_foretell_runs :
    gate.definition.check gate.transforms.contains = .ok [
      .invalidRule "gate" 0 (.ruleText (.malformed "(")), .dangling "gate" "moat",
      .backward "gate" "gate"] ∧
    (gate.run .null "trace" ()).1.events = [.runStarted "gate",
      .ruleFailed "gate" 0 (.ruleText (.malformed "(")), .danglingTarget "gate" "moat",
      .routeTaken "gate" "gate", .runFinished .aborted 1].map (Event.mk "trace") ∧
    (∀ event ∈ (gate.run .null "trace" ()).1.events, event.kind.Foretold gate.definition [
      .invalidRule "gate" 0 (.ruleText (.malformed "(")), .dangling "gate" "moat",
      .backward "gate" "gate"]) ∧
    gate.Forewarned ⟨"gate", none, false,
        .route [⟨.text "(", "yard"⟩, ⟨.tree .always, "moat"⟩, ⟨.text "content", "gate"⟩]⟩
      [⟨.text "(", "yard"⟩, ⟨.tree .always, "moat"⟩, ⟨.text "content", "gate"⟩] 0
      ⟨.text "(", "yard"⟩ (.ruleText (.malformed "(")) := by
  have hcheck : gate.definition.check gate.transforms.contains = .ok [
      .invalidRule "gate" 0 (.ruleText (.malformed "(")), .dangling "gate" "moat",
      .backward "gate" "gate"] := rfl
  obtain ⟨hrules, hruns⟩ := warnings_foretell_runs gate hcheck
  refine ⟨hcheck, rfl, (hruns .null "trace" ()).1, ?_⟩
  exact (hrules _ List.mem_cons_self _ 0 _ rfl rfl).1 _ List.mem_cons_self

end Engine

end TriageFlow
