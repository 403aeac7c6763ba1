import TriageFlow.Proofs.Forward

/-!
What the step limit does to a run. No node asks for the limit, so a run goes the way it would go
without one (`Travels`) for as many steps as are allowed (`reaches_limited_iff`). Either it ends on
that way by itself, and a greater limit changes nothing, or it is cut off with just as many nodes
executed, and with a greater limit its log goes on.
-/

namespace TriageFlow

open Json (Value)

namespace Engine

variable {σ : Type}

/-- The engine with another step limit. -/
def limited (e : Engine σ) (limit : Nat) : Engine σ := { e with maxSteps := limit }

/-- The runs, each with the state of the collaborators, that an engine would come to without a
limit. -/
inductive Travels (e : Engine σ) (c : Context) (s : σ) : Run → σ → Prop
  | start : Travels e c s (.start e.definition c) s
  | visit {r : Run} {t : σ} {p : Nat} {n : Node} (earlier : Travels e c s r t)
      (due : r.phase = .running p) (node : e.definition.nodes[p]? = some n) :
      Travels e c s (e.absorb r p n (e.execute n r.context t)) (e.execute n r.context t).state

/-- Without a limit, the run from a context would execute more than so many nodes. -/
def Exceeds (e : Engine σ) (c : Context) (s : σ) (limit : Nat) : Prop :=
  ∃ r t, e.Travels c s r t ∧ limit < r.steps

variable {e : Engine σ} {c : Context} {s t : σ} {r : Run} {p limit larger : Nat}

/-! ## The way of a run -/

/-- A run on its way has gone, within its limit, where it would go without one. -/
theorem reaches_limited_iff :
    (e.limited limit).Reaches c s r t ↔ e.Travels c s r t ∧ r.steps ≤ limit := by
  constructor
  · intro h
    induction h with
    | start => exact ⟨.start, Nat.zero_le _⟩
    | visit _ due allowed node ih => exact ⟨.visit ih.1 due node, allowed⟩
  · rintro ⟨h, hle⟩
    induction h with
    | start => exact .start
    | visit _ due node ih => exact .visit (ih (Nat.le_of_succ_le hle)) due hle node

/-- With a greater limit a run still goes the same way. -/
theorem Reaches.of_le (hle : limit ≤ larger) (h : (e.limited limit).Reaches c s r t) :
    (e.limited larger).Reaches c s r t := by
  obtain ⟨htravels, hsteps⟩ := reaches_limited_iff.mp h
  exact reaches_limited_iff.mpr ⟨htravels, Nat.le_trans hsteps hle⟩

/-- On the way to more nodes there is a point at which just the limit has been executed and a node
is due. -/
theorem Travels.exists_due (h : e.Travels c s r t) (hlt : limit < r.steps) :
    ∃ r' t' p, e.Travels c s r' t' ∧ r'.steps = limit ∧ r'.phase = .running p := by
  induction h with
  | start => exact absurd hlt (Nat.not_lt_zero limit)
  | @visit r t p n earlier due node ih =>
    rcases Nat.lt_or_ge limit r.steps with hlater | hge
    · exact ih hlater
    · exact ⟨r, t, p, earlier, Nat.le_antisymm hge (Nat.le_of_lt_succ hlt), due⟩

/-- No node fails with the fault of the step limit. -/
theorem Reaches.phase_ne_stepLimit (h : e.Reaches c s r t) :
    r.phase ≠ .aborted p (.stepLimit limit) := by
  intro hp
  obtain ⟨r₀, t₀, n, -, -, -, -, hout⟩ := h.exists_failure hp
  obtain ⟨name, -, happly⟩ := execute_eq_error_iff.mp hout
  exact e.transforms.apply_ne_stepLimit _ _ _ _ happly

/-! ## Limited runs -/

/-- A run that would execute more nodes comes to its limit with a node due. -/
theorem Exceeds.exists_due (h : e.Exceeds c s limit) :
    ∃ r t p, (e.limited limit).Reaches c s r t ∧ r.steps = limit ∧ r.phase = .running p := by
  obtain ⟨r, t, hr, hlt⟩ := h
  obtain ⟨r', t', p, hr', hsteps, hp⟩ := hr.exists_due hlt
  exact ⟨r', t', p, reaches_limited_iff.mpr ⟨hr', Nat.le_of_eq hsteps⟩, hsteps, hp⟩

/-- A run that comes to its limit with a node due would execute that node, too. -/
theorem Reaches.exceeds (h : (e.limited limit).Reaches c s r t) (hp : r.phase = .running p)
    (hsteps : r.steps = limit) : e.Exceeds c s limit := by
  obtain ⟨n, hn⟩ := h.exists_node hp
  refine ⟨_, _, (reaches_limited_iff.mp h).1.visit hp hn, ?_⟩
  rw [absorb_steps, hsteps]
  exact Nat.lt_succ_self limit

/-- A run that would not execute more nodes than its limit allows ends by itself. -/
theorem exists_settled_of_not_exceeds (h : ¬e.Exceeds c s limit) :
    ∃ r t, (e.limited limit).Reaches c s r t ∧ ∀ p, r.phase ≠ .running p := by
  obtain ⟨r, t, hr, ⟨hsettled, -⟩ | ⟨p, hp, hsteps, -⟩⟩ := (e.limited limit).runFrom_eq_cases c s
  · exact ⟨r, t, hr, hsettled⟩
  · exact absurd (hr.exceeds hp hsteps) h

/-- A run is aborted by its limit exactly if it would go on beyond it. -/
theorem runFrom_limited_fault_iff :
    ((e.limited limit).runFrom c s).1.fault? = some (.stepLimit limit) ↔ e.Exceeds c s limit := by
  rw [Run.fault?_eq_some_iff]
  constructor
  · rintro ⟨q, hq⟩
    refine Classical.byContradiction fun hwithin => ?_
    obtain ⟨r, t, hr, hsettled⟩ := exists_settled_of_not_exceeds hwithin
    rw [(hr.runFrom_of_settled hsettled).2.2] at hq
    exact hr.phase_ne_stepLimit hq
  · intro h
    obtain ⟨r, t, p, hr, hsteps, hp⟩ := h.exists_due
    exact ⟨p, (hr.runFrom_of_limit hp hsteps).2.2⟩

/-- A run that stays within its limit is the same with a greater one. -/
theorem runFrom_limited_eq (hle : limit ≤ larger) (h : ¬e.Exceeds c s limit) :
    (e.limited limit).runFrom c s = (e.limited larger).runFrom c s := by
  obtain ⟨r, t, hr, hsettled⟩ := exists_settled_of_not_exceeds h
  rw [hr.runFrom_eq_of_settled hsettled, (hr.of_le hle).runFrom_eq_of_settled hsettled]
  rfl

/-- A greater limit only makes the log longer. -/
theorem runFrom_limited_logs_grow (hle : limit ≤ larger) :
    ((e.limited limit).runFrom c s).1.context.logs <+:
      ((e.limited larger).runFrom c s).1.context.logs := by
  obtain ⟨r, t, hr, hcontext, -⟩ := (e.limited limit).runFrom_cases c s
  rw [hcontext]
  exact (hr.of_le hle).precedes_runFrom.logs

/-- The step limit only cuts runs off. With a greater limit the log of a run goes on where it ended
before. A run is aborted by its limit exactly if it would execute more nodes without one, and then
it has executed just as many as are allowed; any other run is the same with a greater limit. -/
theorem step_limit_truncates (e : Engine σ) {limit larger : Nat} (hle : limit ≤ larger)
    (input : Value) (traceId : String) (s : σ) :
    ((e.limited limit).run input traceId s).1.context.logs <+:
      ((e.limited larger).run input traceId s).1.context.logs ∧
    (((e.limited limit).run input traceId s).1.fault? = some (.stepLimit limit) ↔
      e.Exceeds (.start input traceId) s limit) ∧
    (e.Exceeds (.start input traceId) s limit →
      ((e.limited limit).run input traceId s).1.steps = limit ∧
      ((e.limited limit).run input traceId s).1.context.logs.length = limit) ∧
    (¬e.Exceeds (.start input traceId) s limit →
      (e.limited limit).run input traceId s = (e.limited larger).run input traceId s) := by
  refine ⟨runFrom_limited_logs_grow hle, runFrom_limited_fault_iff, ?_, runFrom_limited_eq hle⟩
  intro hexceeds
  obtain ⟨r, t, p, hr, hsteps, hp⟩ := hexceeds.exists_due
  obtain ⟨hcontext, hrunSteps, -⟩ := hr.runFrom_of_limit hp hsteps
  unfold run
  rw [hrunSteps, hcontext, ← hr.steps_eq rfl]
  exact ⟨hsteps, hsteps⟩

/-- A watch that goes round for ever, unless there is a record, which it notes down. -/
def watch : Engine Unit where
  definition := ⟨"watch", [⟨"look", none, false, .retrieve "earlier"⟩,
    ⟨"turn", none, false, .route [⟨.tree (.field ⟨"input", []⟩), "note"⟩, ⟨.tree .always, "look"⟩]⟩,
    ⟨"note", none, true, .action "note" .null⟩]⟩
  collaborators := .none
  transforms := []
  replies := .standard
  maxSteps := 0
  timeout := 0
  now := .standing ⟨0⟩

/-- A quiet watch is cut off after three nodes and goes on with five; one with a record needs three
nodes and has them. -/
theorem watch_limit_truncates :
    watch.Exceeds (.start .null "trace") () 3 ∧
    ((watch.limited 3).run .null "trace" ()).1.context.logs <+:
      ((watch.limited 5).run .null "trace" ()).1.context.logs ∧
    ((watch.limited 5).run .null "trace" ()).1.context.logs.map LogEntry.nodeId =
      ["look", "turn", "look", "turn", "look"] ∧
    ((watch.limited 3).run (.object []) "trace" ()).1.report =
      ((watch.limited 5).run (.object []) "trace" ()).1.report ∧
    ((watch.limited 3).run (.object []) "trace" ()).1.steps = 3 := by
  have hle : 3 ≤ 5 := by decide
  have hquiet := step_limit_truncates watch hle .null "trace" ()
  have hnoted := step_limit_truncates watch hle (.object []) "trace" ()
  have hwithin : ¬watch.Exceeds (.start (.object []) "trace") () 3 := by
    rw [← hnoted.2.1]
    exact fun h => by cases h
  exact ⟨hquiet.2.1.mp rfl, hquiet.1, rfl, by rw [hnoted.2.2.2 hwithin], rfl⟩

end Engine

end TriageFlow
