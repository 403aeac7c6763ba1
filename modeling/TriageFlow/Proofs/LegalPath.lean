import Mathlib.Data.List.Chain
import TriageFlow.Proofs.Reach

/-!
The log of a run is a legal path of its definition. The entries alone tell where a run may go: from
an output or a router that fell through to the next declared node, from a router that jumped to its
target, and nowhere from a failure or a terminal node (`Follows`). A run is always in the phase that
its last entry leads to (`Reaches.arrived`), which gives the path, its end (`Ends`) and that no
position outside the definition is ever due.
-/

namespace TriageFlow

open Json (Value)

namespace Definition

/-- What two consecutive entries of a log have to do with each other. -/
structure Follows (d : Definition) (a b : LogEntry) : Prop where
  /-- Nothing follows a failure. -/
  succeeded : a.status = .success
  /-- Nothing follows a success of a terminal node. -/
  goesOn : ∀ n ∈ d.nodes, n.id = a.nodeId → n.isRouter = false → n.terminal = false
  /-- The next declared node follows an output, and a router that fell through. -/
  onward : ∀ p n, d.nodes[p]? = some n → n.id = a.nodeId → n.isRouter = false ∨ a.output = .null →
    ∃ m, d.nodes[p + 1]? = some m ∧ m.id = b.nodeId
  /-- The target follows a router that jumped. -/
  jumped : ∀ n ∈ d.nodes, n.id = a.nodeId → n.isRouter = true →
    ∀ target, a.output = .object [("target", .string target)] → b.nodeId = target

/-- An entry of a declared node; a router falls through or names a declared target. -/
def IsEntry (d : Definition) (a : LogEntry) : Prop :=
  ∃ n ∈ d.nodes, n.id = a.nodeId ∧ (n.isRouter = true → a.status = .success ∧
    (a.output = .null ∨
      ∃ target, a.output = .object [("target", .string target)] ∧ d.declares target = true))

/-- A path that starts at the first node and goes from each entry to one that may follow it. -/
structure LegalPath (d : Definition) (log : List LogEntry) : Prop where
  first : ∀ a ∈ log.head?, ∃ n, d.nodes[0]? = some n ∧ n.id = a.nodeId
  entries : ∀ a ∈ log, d.IsEntry a
  follows : log.IsChain d.Follows

/-- An entry after which no node is due: the success of a terminal node that is no router, or of
the last declared node without a jump. -/
def Ends (d : Definition) (a : LogEntry) : Prop :=
  a.status = .success ∧ ∃ p n, d.nodes[p]? = some n ∧ n.id = a.nodeId ∧
    ((n.isRouter = false ∧ n.terminal = true) ∨
      (p + 1 = d.nodes.length ∧ (n.isRouter = false ∨ a.output = .null)))

/-! ## One entry -/

/-- An entry that holds an outcome of the node at a position. -/
structure Records (d : Definition) (a : LogEntry) (p : Nat) (n : Node)
    (x : Except Fault Outcome) : Prop where
  node : d.nodes[p]? = some n
  nodeId : a.nodeId = n.id
  status : a.status = outcomeStatus x
  output : a.output = outcomeValue x
  fits : d.Fits n x

variable {d : Definition} {a b : LogEntry} {p q : Nat} {n m : Node} {x : Except Fault Outcome}

theorem isTerminal_of_getElem? (h : d.nodes[p]? = some n) : d.isTerminal p = n.terminal := by
  unfold isTerminal
  rw [h]
  rfl

theorem advance_eq_running_iff : d.advance p = .running q ↔ q = p + 1 ∧ p + 1 < d.nodes.length := by
  unfold advance
  split
  · next h => simp [h, eq_comm]
  · next h => simp [h]

theorem advance_eq_completed_iff : d.advance p = .completed ↔ d.nodes.length ≤ p + 1 := by
  unfold advance
  split
  · next h => simp [h]
  · next h => simpa using h

theorem transition_of_output (h : d.nodes[p]? = some n) (o : Output) :
    d.transition p (.ok (.output o)) = if n.terminal then .completed else d.advance p := by
  rw [← isTerminal_of_getElem? h]
  rfl

theorem transition_of_jump {target : String} (h : d.indexOf? target = some q) :
    d.transition p (.ok (.jump (some target))) = .running q := by
  simp only [transition, h]

namespace Records

theorem isEntry (h : d.Records a p n x) : d.IsEntry a := by
  refine ⟨n, List.mem_of_getElem? h.node, h.nodeId.symm, fun hrouter => ?_⟩
  obtain ⟨rules, hkind⟩ := Node.isRouter_eq_true_iff.mp hrouter
  rw [h.status, h.output]
  cases h.fits with
  | jumped _ _ hdeclared => exact ⟨rfl, .inr ⟨_, rfl, hdeclared⟩⟩
  | fellThrough _ => exact ⟨rfl, .inl rfl⟩
  | gave _ hplain =>
    rw [hrouter] at hplain
    cases hplain
  | failed _ hfailed =>
    rw [hkind] at hfailed
    cases hfailed

/-- Where a run goes on from an entry, and why. -/
theorem running_cases (h : d.Records a p n x) (hq : d.transition p x = .running q) :
    a.status = .success ∧
      ((n.isRouter = true ∧ ∃ target, a.output = .object [("target", .string target)] ∧
          d.indexOf? target = some q) ∨
        (q = p + 1 ∧ ((n.isRouter = true ∧ a.output = .null) ∨
          (n.isRouter = false ∧ n.terminal = false)))) := by
  rw [h.status, h.output]
  cases h.fits with
  | @jumped rules rule hkind hmem hdeclared =>
    obtain ⟨q', hindex⟩ := Option.isSome_iff_exists.mp hdeclared
    rw [transition_of_jump hindex] at hq
    cases hq
    exact ⟨rfl, .inl ⟨Node.isRouter_eq_true_iff.mpr ⟨rules, hkind⟩, _, rfl, hindex⟩⟩
  | @fellThrough rules hkind =>
    obtain ⟨rfl, -⟩ := advance_eq_running_iff.mp hq
    exact ⟨rfl, .inr ⟨rfl, .inl ⟨Node.isRouter_eq_true_iff.mpr ⟨rules, hkind⟩, rfl⟩⟩⟩
  | gave o hplain =>
    rw [transition_of_output h.node] at hq
    split at hq
    · cases hq
    · next hterminal =>
      obtain ⟨rfl, -⟩ := advance_eq_running_iff.mp hq
      exact ⟨rfl, .inr ⟨rfl, .inr ⟨hplain, by simpa using hterminal⟩⟩⟩
  | failed fault hkind => cases hq

/-- The entry of the node that is due next follows the entry that led to it. -/
theorem follows {registered : String → Bool} (hd : d.Valid registered) (h : d.Records a p n x)
    (hq : d.transition p x = .running q) (hm : d.nodes[q]? = some m) (hb : b.nodeId = m.id) :
    d.Follows a b := by
  obtain ⟨hstatus, hcases⟩ := h.running_cases hq
  have hmem := List.mem_of_getElem? h.node
  have same {n' : Node} (hn' : n' ∈ d.nodes) (hid : n'.id = a.nodeId) : n' = n :=
    hd.node_inj hn' hmem (hid.trans h.nodeId)
  refine ⟨hstatus, ?_, ?_, ?_⟩
  · intro n' hn' hid hplain
    obtain rfl := same hn' hid
    rcases hcases with ⟨hrouter, -⟩ | ⟨-, ⟨hrouter, -⟩ | ⟨-, hterminal⟩⟩
    · rw [hplain] at hrouter
      cases hrouter
    · rw [hplain] at hrouter
      cases hrouter
    · exact hterminal
  · intro p' n' hn' hid hthrough
    obtain rfl := same (List.mem_of_getElem? hn') hid
    obtain rfl := hd.position_inj hn' h.node rfl
    rcases hcases with ⟨hrouter, target, houtput, -⟩ | ⟨rfl, -⟩
    · rw [hrouter, houtput] at hthrough
      rcases hthrough with hplain | hnull
      · cases hplain
      · cases hnull
    · exact ⟨m, hm, hb.symm⟩
  · intro n' hn' hid hrouter target houtput
    obtain rfl := same hn' hid
    rcases hcases with ⟨-, target', houtput', hindex⟩ | ⟨-, ⟨-, hnull⟩ | ⟨hplain, -⟩⟩
    · rw [houtput] at houtput'
      obtain rfl : target = target' := by simpa using houtput'
      obtain ⟨m', hm', hid'⟩ := getElem?_of_indexOf? hindex
      rw [hm] at hm'
      obtain rfl := Option.some.inj hm'
      exact hb.trans hid'
    · rw [houtput] at hnull
      cases hnull
    · rw [hrouter] at hplain
      cases hplain

/-- A run is completed by an entry exactly if no node is due after it. -/
theorem completed_iff {registered : String → Bool} (hd : d.Valid registered)
    (h : d.Records a p n x) : d.transition p x = .completed ↔ d.Ends a := by
  have hlt := (List.getElem?_eq_some_iff.mp h.node).1
  have hlast : d.advance p = .completed ↔ p + 1 = d.nodes.length := by
    rw [advance_eq_completed_iff]
    omega
  have hends : d.Ends a ↔ a.status = .success ∧ ((n.isRouter = false ∧ n.terminal = true) ∨
      (p + 1 = d.nodes.length ∧ (n.isRouter = false ∨ a.output = .null))) := by
    refine and_congr_right fun _ => ⟨?_, fun hwhy => ⟨p, n, h.node, h.nodeId.symm, hwhy⟩⟩
    rintro ⟨p', n', hn', hid, hwhy⟩
    obtain rfl := hd.position_inj hn' h.node (hid.trans h.nodeId)
    rw [h.node] at hn'
    obtain rfl := Option.some.inj hn'
    exact hwhy
  rw [hends, h.status, h.output]
  cases h.fits with
  | @jumped rules rule hkind hmem hdeclared =>
    obtain ⟨q, hindex⟩ := Option.isSome_iff_exists.mp hdeclared
    have hrouter : n.isRouter = true := Node.isRouter_eq_true_iff.mpr ⟨rules, hkind⟩
    rw [transition_of_jump hindex]
    simp [hrouter, outcomeValue]
  | @fellThrough rules hkind =>
    have hrouter : n.isRouter = true := Node.isRouter_eq_true_iff.mpr ⟨rules, hkind⟩
    rw [show d.transition p (.ok (.jump none)) = d.advance p from rfl, hlast]
    simp [hrouter, outcomeStatus, outcomeValue]
  | gave o hplain =>
    rw [transition_of_output h.node]
    split
    · next hterminal => simp [hterminal, hplain, outcomeStatus]
    · next hterminal =>
      rw [hlast]
      simp [hterminal, hplain, outcomeStatus]
  | failed fault hkind => simp [transition, outcomeStatus]

end Records

end Definition

/-! ## Runs -/

namespace Engine

variable {σ : Type} {e : Engine σ} {registered : String → Bool} {c : Context} {s t : σ} {r : Run}

theorem records_entryOf {p : Nat} {n : Node} (hn : e.definition.nodes[p]? = some n) :
    e.definition.Records (e.entryOf r n (e.execute n r.context t)) p n
      (e.execute n r.context t).outcome :=
  ⟨hn, rfl, rfl, rfl, e.execute_fits n r.context t⟩

/-- A run stands where its last entry leads to, or at the start as long as there is none. -/
theorem Reaches.arrived (hlog : c.logs = []) (h : e.Reaches c s r t) :
    (r.context.logs = [] ∧ r.phase = e.definition.firstPhase) ∨
      ∃ older a p n x, r.context.logs = older ++ [a] ∧ e.definition.Records a p n x ∧
        r.phase = e.definition.transition p x := by
  cases h with
  | start => exact .inl ⟨hlog, rfl⟩
  | @visit r t p n _ _ _ node =>
    exact .inr ⟨r.context.logs, _, p, n, _, e.absorb_logs r p n _, records_entryOf node, rfl⟩

/-- The log of a run on its way is a legal path. -/
theorem Reaches.legalPath (hd : e.definition.Valid registered) (hlog : c.logs = [])
    (h : e.Reaches c s r t) : e.definition.LegalPath r.context.logs := by
  induction h with
  | start =>
    rw [Run.start_context, hlog]
    exact ⟨by simp, by simp, List.isChain_nil⟩
  | @visit r t p n earlier due allowed node ih =>
    have hrecords := records_entryOf (r := r) (t := t) node
    rw [absorb_logs]
    refine ⟨?_, ?_, ?_⟩
    · intro a ha
      rcases earlier.arrived hlog with ⟨hempty, hphase⟩ | ⟨older, a', p', n', x', hlast, -, -⟩
      · -- The first entry is that of the node which is due first.
        rw [hempty] at ha
        obtain rfl := Option.some.inj ha
        rw [due] at hphase
        obtain rfl : p = 0 := by
          unfold Definition.firstPhase at hphase
          split at hphase
          · cases hphase
          · cases hphase
            rfl
        exact ⟨n, node, rfl⟩
      · refine ih.first a ?_
        rw [hlast] at ha ⊢
        rwa [List.head?_append_of_ne_nil _ (by simp)] at ha
    · intro a ha
      rcases List.mem_append.mp ha with ha | ha
      · exact ih.entries a ha
      · rw [List.mem_singleton.mp ha]
        exact hrecords.isEntry
    · refine List.isChain_append.mpr ⟨ih.follows, List.isChain_singleton _, ?_⟩
      intro a ha b hb
      obtain rfl := Option.some.inj hb
      rcases earlier.arrived hlog with ⟨hempty, -⟩ | ⟨older, a', p', n', x', hlast, ha', hphase⟩
      · rw [hempty] at ha
        cases ha
      · rw [hlast, List.getLast?_concat] at ha
        obtain rfl := Option.some.inj ha
        exact ha'.follows hd (hphase.symm.trans due) node rfl

/-- A settled run is completed exactly if nothing was to be executed or its last entry ends it. -/
theorem Reaches.completed_iff (hd : e.definition.Valid registered) (hlog : c.logs = [])
    (h : e.Reaches c s r t) :
    r.phase = .completed ↔ e.definition.nodes = [] ∨
      ∃ a ∈ r.context.logs.getLast?, e.definition.Ends a := by
  rcases h.arrived hlog with ⟨hempty, hphase⟩ | ⟨older, a, p, n, x, hlast, ha, hphase⟩
  · rw [hempty, hphase]
    unfold Definition.firstPhase
    split
    · next hnodes => simpa using hnodes
    · next hnodes => simpa using hnodes
  · have hnodes : e.definition.nodes ≠ [] := List.ne_nil_of_mem (List.mem_of_getElem? ha.node)
    rw [hlast, hphase, ha.completed_iff hd, List.getLast?_concat]
    constructor
    · intro hends
      exact .inr ⟨a, rfl, hends⟩
    · rintro (hempty | ⟨b, hb, hends⟩)
      · exact absurd hempty hnodes
      · obtain rfl := Option.some.inj hb
        exact hends

/-- A router that jumps names a declared node. -/
theorem execute_jump_declared {n : Node} {target : String}
    (h : (e.execute n c s).outcome = .ok (.jump (some target))) :
    ∃ q, e.definition.indexOf? target = some q := by
  have hfits := e.execute_fits n c s
  rw [h] at hfits
  cases hfits with
  | jumped _ _ hdeclared => exact Option.isSome_iff_exists.mp hdeclared

/-- The log of every run of a definition that passes its check is a legal path, whose length is the
number of steps and whose last entry tells whether the run is completed. Wherever a node is due it
is one of the definition, and a jump from it leads to another. -/
theorem log_is_legal_path (e : Engine σ) {registered : String → Bool} {warnings : List Warning}
    (h : e.definition.check registered = .ok warnings) (input : Value) (traceId : String) (s : σ) :
    e.definition.LegalPath (e.run input traceId s).1.context.logs ∧
    ((e.run input traceId s).1.status = .completed ↔ e.definition.nodes = [] ∨
      ∃ a ∈ (e.run input traceId s).1.context.logs.getLast?, e.definition.Ends a) ∧
    (e.run input traceId s).1.steps = (e.run input traceId s).1.context.logs.length ∧
    ∀ k, e.definition.LegalPath (e.point input traceId s k).1.context.logs ∧
      (e.point input traceId s k).1.steps = (e.point input traceId s k).1.context.logs.length ∧
      ∀ p, (e.point input traceId s k).1.phase = .running p → ∃ n,
        e.definition.nodes[p]? = some n ∧ ∀ target,
          (e.execute n (e.point input traceId s k).1.context
            (e.point input traceId s k).2).outcome = .ok (.jump (some target)) →
          ∃ q, e.definition.indexOf? target = some q := by
  have hd := (Definition.check_eq_ok_iff.mp h).1
  refine ⟨?_, ?_, ?_, fun k => ⟨?_, ?_, fun p hp => ?_⟩⟩
  · obtain ⟨r, t, hr, hcontext, -⟩ := e.runFrom_cases (.start input traceId) s
    rw [run, hcontext]
    exact hr.legalPath hd rfl
  · obtain ⟨r, t, hr, hcontext, -, ⟨hsettled, hphase⟩ | ⟨p, hp, -, hphase⟩⟩ :=
      e.runFrom_cases (.start input traceId) s
    · rw [run, hcontext, ← hr.completed_iff hd rfl, Run.status_eq_completed_iff, hphase]
      cases hlast : r.phase with
      | running p => exact absurd hlast (hsettled p)
      | aborted p cause => simp
      | completed => simp
    · rw [run, hcontext, ← hr.completed_iff hd rfl, Run.status_eq_completed_iff, hphase, hp]
      simp
  · obtain ⟨r, t, hr, hcontext, hsteps, -⟩ := e.runFrom_cases (.start input traceId) s
    rw [run, hcontext, hsteps]
    exact hr.steps_eq rfl
  · obtain ⟨r, t, hr, hcontext, -⟩ := e.point_cases input traceId s k
    rw [hcontext]
    exact hr.legalPath hd rfl
  · obtain ⟨r, t, hr, hcontext, hsteps⟩ := e.point_cases input traceId s k
    rw [hcontext, hsteps]
    exact hr.steps_eq rfl
  · obtain ⟨n, hn⟩ := (reaches_point hp).exists_node hp
    exact ⟨n, hn, fun target hjump => execute_jump_declared hjump⟩

/-- A router that jumps over the first of two terminal nodes. -/
def detour : Engine Unit where
  definition := ⟨"detour", [⟨"door", none, false, .route [⟨.tree .always, "desk"⟩]⟩,
    ⟨"lost", none, true, .action "search" .null⟩, ⟨"desk", none, true, .action "greet" .null⟩,
    ⟨"never", none, false, .retrieve "closed"⟩]⟩
  collaborators := .none
  transforms := []
  replies := .standard
  maxSteps := 2
  timeout := 0
  now := .standing ⟨0⟩

/-- The run takes the jump and ends at the terminal node, with as many steps as are allowed. -/
theorem detour_log_is_legal_path :
    detour.definition.check detour.transforms.contains = .ok [] ∧
    detour.definition.LegalPath (detour.run .null "trace" ()).1.context.logs ∧
    (detour.run .null "trace" ()).1.context.logs.map LogEntry.nodeId = ["door", "desk"] ∧
    (detour.run .null "trace" ()).1.status = .completed := by
  have hcheck : detour.definition.check detour.transforms.contains = .ok [] := rfl
  exact ⟨hcheck, (log_is_legal_path detour hcheck .null "trace" ()).1, rfl, rfl⟩

end Engine

end TriageFlow
