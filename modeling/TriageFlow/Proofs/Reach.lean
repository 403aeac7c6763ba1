import TriageFlow.Proofs.Outcome

/-!
Runs on their way. `Reaches` holds of the runs that an engine comes to from a context by executing
one node after another. A loop of steps stays with them until the step limit cuts a run off
(`drive_cases`), and one step more than the limit allows settles every run (`runFrom_cases`). A fact
about every point of a run is therefore one induction on `Reaches`.
-/

namespace TriageFlow

open Json (Value)

theorem Phase.running_or_settled (phase : Phase) :
    (∃ p, phase = .running p) ∨ ∀ p, phase ≠ .running p := by
  cases phase with
  | running p => exact .inl ⟨p, rfl⟩
  | aborted p cause => exact .inr (by simp)
  | completed => exact .inr (by simp)

namespace Definition

variable {d : Definition}

theorem advance_running_lt {p q : Nat} (h : d.advance p = .running q) : q < d.nodes.length := by
  unfold advance at h
  split at h
  · cases h
    assumption
  · cases h

/-- A transition never leaves the definition. -/
theorem transition_running_lt {p q : Nat} {x : Except Fault Outcome}
    (h : d.transition p x = .running q) : q < d.nodes.length := by
  unfold transition at h
  split at h
  · cases h
  · split at h
    · cases h
    · exact advance_running_lt h
  · exact advance_running_lt h
  · split at h
    · next hindex =>
      cases h
      exact indexOf?_lt hindex
    · exact advance_running_lt h

theorem firstPhase_running_lt {q : Nat} (h : d.firstPhase = .running q) : q < d.nodes.length := by
  unfold firstPhase at h
  split at h
  · cases h
  · next hempty =>
    cases h
    exact List.length_pos_iff.mpr (by simpa using hempty)

end Definition

namespace Run

@[simp] theorem tell_context (r : Run) (kinds : List EventKind) :
    (r.tell kinds).context = r.context := rfl

@[simp] theorem tell_phase (r : Run) (kinds : List EventKind) :
    (r.tell kinds).phase = r.phase := rfl

@[simp] theorem tell_steps (r : Run) (kinds : List EventKind) :
    (r.tell kinds).steps = r.steps := rfl

@[simp] theorem start_context (d : Definition) (c : Context) : (start d c).context = c := rfl

@[simp] theorem start_steps (d : Definition) (c : Context) : (start d c).steps = 0 := rfl

variable {r : Run}

theorem status_congr {r' : Run} (h : r.phase = r'.phase) : r.status = r'.status := by
  unfold status
  rw [h]

theorem status_eq_completed_iff :
    r.status = .completed ↔ ∀ p cause, r.phase ≠ .aborted p cause := by
  unfold status
  split
  · next p cause hphase => simp [hphase]
  · next hphase => simpa using hphase

theorem fault?_eq_some_iff {fault : Fault} :
    r.fault? = some fault ↔ ∃ p, r.phase = .aborted p fault := by
  unfold fault?
  split
  · next p cause hphase => simp [hphase]
  · next hphase => simpa using fun p => hphase p fault

theorem status_eq_aborted_iff : r.status = .aborted ↔ ∃ fault, r.fault? = some fault := by
  unfold status fault?
  split
  · simp
  · simp

theorem reply_of_aborted (h : r.status = .aborted) (replies : Replies) :
    r.reply replies = replies.failure := by
  unfold reply
  rw [h]

/-- What a run holds is the beginning of what a later one holds. -/
structure Precedes (r r' : Run) : Prop where
  logs : r.context.logs <+: r'.context.logs
  calls : r.calls <+: r'.calls
  events : r.events <+: r'.events

theorem Precedes.refl (r : Run) : r.Precedes r :=
  ⟨List.prefix_refl _, List.prefix_refl _, List.prefix_refl _⟩

theorem precedes_setPhase (r : Run) (phase : Phase) : r.Precedes { r with phase := phase } :=
  ⟨List.prefix_refl _, List.prefix_refl _, List.prefix_refl _⟩

theorem Precedes.trans {r₁ r₂ r₃ : Run} (h : r₁.Precedes r₂) (h' : r₂.Precedes r₃) :
    r₁.Precedes r₃ :=
  ⟨h.logs.trans h'.logs, h.calls.trans h'.calls, h.events.trans h'.events⟩

end Run

@[simp] theorem Context.keep_logs (c : Context) (id : String) (x : Except Fault Outcome) :
    (c.keep id x).logs = c.logs := by
  unfold keep
  split <;> rfl

/-- Keeping an output leaves alone what the context was started with. -/
theorem Context.keep_origin (c : Context) (id : String) (x : Except Fault Outcome) :
    (c.keep id x).input = c.input ∧ (c.keep id x).content = c.content ∧
      (c.keep id x).traceId = c.traceId := by
  unfold keep
  split
  · exact ⟨rfl, rfl, rfl⟩
  · exact ⟨rfl, rfl, rfl⟩

namespace Engine

variable {σ : Type}

/-! ## One step -/

/-- The log entry of an execution of a node. -/
def entryOf (e : Engine σ) (r : Run) (n : Node) (x : Execution σ) : LogEntry :=
  ⟨r.context.traceId, n.id, outcomeStatus x.outcome, outcomeValue x.outcome,
    e.now.elapsed r.context.traceId r.context.logs.length,
    e.now.logged r.context.traceId r.context.logs.length⟩

@[simp] theorem absorb_context (e : Engine σ) (r : Run) (p : Nat) (n : Node) (x : Execution σ) :
    (e.absorb r p n x).context = (r.context.keep n.id x.outcome).log (e.entryOf r n x) := rfl

@[simp] theorem absorb_logs (e : Engine σ) (r : Run) (p : Nat) (n : Node) (x : Execution σ) :
    (e.absorb r p n x).context.logs = r.context.logs ++ [e.entryOf r n x] := by
  rw [absorb_context, Context.log, Context.keep_logs]

@[simp] theorem absorb_phase (e : Engine σ) (r : Run) (p : Nat) (n : Node) (x : Execution σ) :
    (e.absorb r p n x).phase = e.definition.transition p x.outcome := rfl

@[simp] theorem absorb_steps (e : Engine σ) (r : Run) (p : Nat) (n : Node) (x : Execution σ) :
    (e.absorb r p n x).steps = r.steps + 1 := rfl

/-- A run that the limit cuts off before the node at a position. -/
def cutOff (e : Engine σ) (r : Run) (p : Nat) : Run :=
  { r with phase := .aborted p (.stepLimit e.maxSteps) }

variable {e : Engine σ} {r : Run} {t : σ} {p : Nat}

theorem step_of_limit (hp : r.phase = .running p) (hlimit : e.maxSteps ≤ r.steps) :
    e.step r t = (e.cutOff r p, t) := by
  unfold step
  rw [hp]
  exact if_pos hlimit

theorem step_of_node {n : Node} (hp : r.phase = .running p) (hlimit : r.steps < e.maxSteps)
    (hn : e.definition.nodes[p]? = some n) :
    e.step r t = (e.absorb r p n (e.execute n r.context t), (e.execute n r.context t).state) := by
  unfold step
  rw [hp]
  dsimp only
  rw [if_neg (by omega), hn]

theorem step_of_settled (h : ∀ p, r.phase ≠ .running p) : e.step r t = (r, t) := by
  unfold step
  split
  · next p hp => exact absurd hp (h p)
  · rfl

/-- A step from a position of the definition executes the node there, or cuts the run off. -/
theorem step_cases_of_lt (hp : r.phase = .running p) (hlt : p < e.definition.nodes.length)
    (hsteps : r.steps ≤ e.maxSteps) :
    (∃ n, r.steps < e.maxSteps ∧ e.definition.nodes[p]? = some n ∧
      e.step r t = (e.absorb r p n (e.execute n r.context t), (e.execute n r.context t).state)) ∨
    (r.steps = e.maxSteps ∧ e.step r t = (e.cutOff r p, t)) := by
  have hn := List.getElem?_eq_getElem hlt
  rcases Nat.lt_or_ge r.steps e.maxSteps with hallowed | hge
  · exact .inl ⟨_, hallowed, hn, step_of_node hp hallowed hn⟩
  · exact .inr ⟨Nat.le_antisymm hsteps hge, step_of_limit hp hge⟩

theorem precedes_absorb (e : Engine σ) (r : Run) (p : Nat) (n : Node) (x : Execution σ) :
    r.Precedes (e.absorb r p n x) := by
  refine ⟨?_, List.prefix_append _ _, List.prefix_append _ _⟩
  rw [absorb_logs]
  exact List.prefix_append _ _

/-- A step only adds to what a run holds. -/
theorem precedes_step (e : Engine σ) (r : Run) (t : σ) : r.Precedes (e.step r t).1 := by
  unfold step
  split
  · split
    · exact r.precedes_setPhase _
    · split
      · exact r.precedes_setPhase _
      · exact e.precedes_absorb r _ _ _
  · exact .refl r

/-! ## Loops of steps -/

theorem drive_of_settled (h : ∀ p, r.phase ≠ .running p) (k : Nat) : e.drive k r t = (r, t) := by
  cases k with
  | zero => rfl
  | succ k =>
    unfold drive
    split
    · next p hp => exact absurd hp (h p)
    · rfl

/-- A loop starts with a step, also where the run is settled and the step does nothing. -/
theorem drive_succ (k : Nat) : e.drive (k + 1) r t = e.drive k (e.step r t).1 (e.step r t).2 := by
  rcases r.phase.running_or_settled with ⟨p, hp⟩ | hsettled
  · simp only [drive, hp]
  · rw [step_of_settled hsettled, drive_of_settled hsettled, drive_of_settled hsettled]

/-- A loop ends with a step. -/
theorem drive_succ' (k : Nat) :
    e.drive (k + 1) r t = e.step (e.drive k r t).1 (e.drive k r t).2 := by
  induction k generalizing r t with
  | zero => rw [drive_succ]; rfl
  | succ k ih => rw [drive_succ, ih, ← drive_succ]

theorem drive_add (j k : Nat) :
    e.drive (j + k) r t = e.drive k (e.drive j r t).1 (e.drive j r t).2 := by
  induction j generalizing r t with
  | zero => rw [Nat.zero_add]; rfl
  | succ j ih => rw [Nat.add_right_comm, drive_succ, ih, ← drive_succ]

theorem precedes_drive (e : Engine σ) (k : Nat) (r : Run) (t : σ) :
    r.Precedes (e.drive k r t).1 := by
  induction k with
  | zero => exact .refl r
  | succ k ih =>
    rw [drive_succ']
    exact ih.trans (e.precedes_step _ _)

/-! ## Runs on their way -/

/-- The runs, each with the state of the collaborators, that an engine comes to from a context by
executing the node that is due again and again. -/
inductive Reaches (e : Engine σ) (c : Context) (s : σ) : Run → σ → Prop
  | start : Reaches e c s (.start e.definition c) s
  | visit {r : Run} {t : σ} {p : Nat} {n : Node} (earlier : Reaches e c s r t)
      (due : r.phase = .running p) (allowed : r.steps < e.maxSteps)
      (node : e.definition.nodes[p]? = some n) :
      Reaches e c s (e.absorb r p n (e.execute n r.context t)) (e.execute n r.context t).state

variable {c : Context} {s : σ}

/-- The position of the node that is due is one of the definition. -/
theorem Reaches.running_lt (h : e.Reaches c s r t) (hp : r.phase = .running p) :
    p < e.definition.nodes.length := by
  cases h with
  | start => exact Definition.firstPhase_running_lt hp
  | visit _ _ _ _ => exact Definition.transition_running_lt hp

theorem Reaches.exists_node (h : e.Reaches c s r t) (hp : r.phase = .running p) :
    ∃ n, e.definition.nodes[p]? = some n :=
  ⟨_, List.getElem?_eq_getElem (h.running_lt hp)⟩

theorem Reaches.steps_le (h : e.Reaches c s r t) : r.steps ≤ e.maxSteps := by
  cases h with
  | start => exact Nat.zero_le _
  | visit _ _ allowed _ => exact allowed

/-- From a fresh context, every step leaves one entry in the log. -/
theorem Reaches.steps_eq (hlog : c.logs = []) (h : e.Reaches c s r t) :
    r.steps = r.context.logs.length := by
  induction h with
  | start => simp [hlog]
  | visit _ _ _ _ ih =>
    rw [absorb_steps, absorb_logs, List.length_append, ih]
    rfl

/-- A run keeps the record, the content and the trace id that it was started with. -/
theorem Reaches.origin (h : e.Reaches c s r t) : r.context.input = c.input ∧
    r.context.content = c.content ∧ r.context.traceId = c.traceId := by
  induction h with
  | start => exact ⟨rfl, rfl, rfl⟩
  | @visit r t p n _ _ _ _ ih =>
    obtain ⟨hinput, hcontent, htrace⟩ :=
      r.context.keep_origin n.id (e.execute n r.context t).outcome
    exact ⟨hinput.trans ih.1, hcontent.trans ih.2.1, htrace.trans ih.2.2⟩

/-- From a fresh context, each entry of the log holds what the clock tells for its number. -/
theorem Reaches.entry_readings (hlog : c.logs = []) (h : e.Reaches c s r t) {k : Nat}
    {a : LogEntry} (ha : r.context.logs[k]? = some a) :
    a.elapsed = e.now.elapsed c.traceId k ∧ a.time = e.now.logged c.traceId k := by
  induction h with
  | start =>
    rw [Run.start_context, hlog] at ha
    cases ha
  | @visit r t p n earlier due allowed node ih =>
    rw [absorb_logs, List.getElem?_append, List.getElem?_singleton] at ha
    split at ha
    · exact ih ha
    · next hlast =>
      split at ha
      · next hnone =>
        have hnumber : r.context.logs.length = k := by omega
        rw [← Option.some.inj ha, ← hnumber, ← earlier.origin.2.2]
        exact ⟨rfl, rfl⟩
      · cases ha

/-- One step stays on the way or cuts the run off. -/
theorem Reaches.step_cases (h : e.Reaches c s r t) (hp : r.phase = .running p) :
    (∃ n, r.steps < e.maxSteps ∧ e.definition.nodes[p]? = some n ∧
      e.step r t = (e.absorb r p n (e.execute n r.context t), (e.execute n r.context t).state)) ∨
    (r.steps = e.maxSteps ∧ e.step r t = (e.cutOff r p, t)) :=
  step_cases_of_lt hp (h.running_lt hp) h.steps_le

/-- A loop of any length comes to a run on its way, or to one that the limit has cut off. -/
theorem Reaches.drive_cases (h : e.Reaches c s r t) (k : Nat) :
    ∃ r' t', e.Reaches c s r' t' ∧
      (e.drive k r t = (r', t') ∨
        ∃ p, r'.phase = .running p ∧ r'.steps = e.maxSteps ∧
          e.drive k r t = (e.cutOff r' p, t')) := by
  induction k generalizing r t with
  | zero => exact ⟨r, t, h, .inl rfl⟩
  | succ k ih =>
    rcases r.phase.running_or_settled with ⟨p, hp⟩ | hsettled
    · rw [drive_succ]
      rcases h.step_cases hp with ⟨n, hlt, hn, hstep⟩ | ⟨hsteps, hstep⟩
      · rw [hstep]
        exact ih (.visit h hp hlt hn)
      · refine ⟨r, t, h, .inr ⟨p, hp, hsteps, ?_⟩⟩
        rw [hstep]
        exact drive_of_settled (by simp [cutOff]) k
    · exact ⟨r, t, h, .inl (drive_of_settled hsettled (k + 1))⟩

/-- A run on its way is where the loop of its steps comes to. -/
theorem Reaches.drive_steps (h : e.Reaches c s r t) :
    e.drive r.steps (.start e.definition c) s = (r, t) := by
  induction h with
  | start => rfl
  | visit earlier due allowed node ih =>
    rw [absorb_steps, drive_succ', ih]
    exact step_of_node due allowed node

/-! ## Points of a run -/

/-- The run on an inbound record after so many steps, with the state of the collaborators. -/
def point (e : Engine σ) (input : Value) (traceId : String) (s : σ) (k : Nat) : Run × σ :=
  e.drive k (.start e.definition (.start input traceId)) s

section Point

variable {input : Value} {traceId : String} {k : Nat}

/-- At every point its context and its steps are those of a run on its way. -/
theorem point_cases (e : Engine σ) (input : Value) (traceId : String) (s : σ) (k : Nat) :
    ∃ r t, e.Reaches (.start input traceId) s r t ∧
      (e.point input traceId s k).1.context = r.context ∧
      (e.point input traceId s k).1.steps = r.steps := by
  unfold point
  obtain ⟨r, t, hr, hdrive | ⟨p, -, -, hdrive⟩⟩ := (Reaches.start (e := e)).drive_cases k
  · rw [hdrive]
    exact ⟨r, t, hr, rfl, rfl⟩
  · rw [hdrive]
    exact ⟨r, t, hr, rfl, rfl⟩

/-- A point at which a node is due is on the way. -/
theorem reaches_point (hp : (e.point input traceId s k).1.phase = .running p) :
    e.Reaches (.start input traceId) s (e.point input traceId s k).1
      (e.point input traceId s k).2 := by
  unfold point at hp ⊢
  obtain ⟨r, t, hr, hdrive | ⟨q, -, -, hdrive⟩⟩ := (Reaches.start (e := e)).drive_cases k
  · rw [hdrive]
    exact hr
  · rw [hdrive] at hp
    cases hp

/-- A run on its way is the point after its steps. -/
theorem Reaches.point_steps (h : e.Reaches (.start input traceId) s r t) :
    e.point input traceId s r.steps = (r, t) := h.drive_steps

end Point

/-! ## Finished runs -/

/-- While a loop is running, each of its steps executes a node. -/
theorem steps_of_running_drive {k : Nat} (hp : (e.drive k r t).1.phase = .running p) :
    (e.drive k r t).1.steps = r.steps + k := by
  induction k generalizing p with
  | zero => rfl
  | succ k ih =>
    rw [drive_succ'] at hp ⊢
    rcases (e.drive k r t).1.phase.running_or_settled with ⟨q, hq⟩ | hsettled
    · have hsteps := ih hq
      unfold step at hp ⊢
      rw [hq] at hp ⊢
      dsimp only at hp ⊢
      split at hp
      · cases hp
      · next hlimit =>
        rw [if_neg hlimit]
        split at hp
        · cases hp
        · rw [absorb_steps, hsteps]
          rfl
    · rw [step_of_settled hsettled] at hp
      exact absurd hp (hsettled p)

@[simp] theorem save_context (e : Engine σ) (r : Run) (s : σ) :
    (e.save r s).1.context = r.context := by
  unfold save
  split <;> rfl

@[simp] theorem save_phase (e : Engine σ) (r : Run) (s : σ) :
    (e.save r s).1.phase = r.phase := by
  unfold save
  split <;> rfl

@[simp] theorem save_steps (e : Engine σ) (r : Run) (s : σ) :
    (e.save r s).1.steps = r.steps := by
  unfold save
  split <;> rfl

theorem precedes_save (e : Engine σ) (r : Run) (s : σ) : r.Precedes (e.save r s).1 := by
  unfold save
  split
  · exact .refl r
  · exact ⟨List.prefix_refl _, List.prefix_append _ _, List.prefix_append _ _⟩

/-- The end of a run: its content is saved, and its end is told. -/
def finish (e : Engine σ) (r : Run) (s : σ) : Run × σ :=
  ({ (e.save r s).1.tell [.runFinished (e.save r s).1.status (e.save r s).1.steps] with
      elapsed := e.now.total (e.save r s).1.context.traceId (e.save r s).1.steps }, (e.save r s).2)

@[simp] theorem finish_context (e : Engine σ) (r : Run) (s : σ) :
    (e.finish r s).1.context = r.context := by
  simp [finish]

@[simp] theorem finish_phase (e : Engine σ) (r : Run) (s : σ) :
    (e.finish r s).1.phase = r.phase := by
  simp [finish]

@[simp] theorem finish_steps (e : Engine σ) (r : Run) (s : σ) :
    (e.finish r s).1.steps = r.steps := by
  simp [finish]

@[simp] theorem finish_elapsed (e : Engine σ) (r : Run) (s : σ) :
    (e.finish r s).1.elapsed = e.now.total r.context.traceId r.steps := by
  simp [finish]

theorem precedes_finish (e : Engine σ) (r : Run) (s : σ) : r.Precedes (e.finish r s).1 :=
  (e.precedes_save r s).trans
    ⟨List.prefix_refl _, List.prefix_refl _, List.prefix_append _ _⟩

/-- The loop of a run passes through every run on its way. -/
theorem Reaches.drive_rest (h : e.Reaches c s r t) :
    e.drive (e.maxSteps + 1) (.start e.definition c) s =
      e.drive (e.maxSteps + 1 - r.steps) r t := by
  have hsplit : e.maxSteps + 1 = r.steps + (e.maxSteps + 1 - r.steps) := by
    have hle := h.steps_le
    omega
  conv => lhs; rw [hsplit]
  rw [drive_add, h.drive_steps]

/-- What a run on its way holds is the beginning of what the finished run holds. -/
theorem Reaches.precedes_runFrom (h : e.Reaches c s r t) : r.Precedes (e.runFrom c s).1 := by
  have hdrive := e.precedes_drive (e.maxSteps + 1 - r.steps) r t
  rw [← h.drive_rest] at hdrive
  exact hdrive.trans (e.precedes_finish _ _)

/-- A run on its way with nothing due is finished as it stands. -/
theorem Reaches.runFrom_eq_of_settled (h : e.Reaches c s r t)
    (hsettled : ∀ p, r.phase ≠ .running p) : e.runFrom c s = e.finish r t := by
  unfold runFrom
  rw [h.drive_rest, drive_of_settled hsettled]
  rfl

/-- A run on its way that has used up its steps with a node still due is finished as one that is
cut off before it. -/
theorem Reaches.runFrom_eq_of_limit (h : e.Reaches c s r t) (hp : r.phase = .running p)
    (hlimit : r.steps = e.maxSteps) : e.runFrom c s = e.finish (e.cutOff r p) t := by
  have hdrive : e.drive (e.maxSteps + 1) (.start e.definition c) s = (e.cutOff r p, t) := by
    rw [drive_succ', ← hlimit, h.drive_steps]
    exact step_of_limit hp (Nat.le_of_eq hlimit.symm)
  unfold runFrom
  rw [hdrive]
  rfl

/-- A run is finished where nothing is due any more, or where the limit cuts it off. -/
theorem runFrom_eq_cases (e : Engine σ) (c : Context) (s : σ) :
    ∃ r t, e.Reaches c s r t ∧
      (((∀ p, r.phase ≠ .running p) ∧ e.runFrom c s = e.finish r t) ∨
        ∃ p, r.phase = .running p ∧ r.steps = e.maxSteps ∧
          e.runFrom c s = e.finish (e.cutOff r p) t) := by
  obtain ⟨r, t, hr, hdrive | ⟨p, hp, hlimit, -⟩⟩ :=
    (Reaches.start (e := e) (c := c) (s := s)).drive_cases (e.maxSteps + 1)
  · have hsettled : ∀ p, r.phase ≠ .running p := by
      intro p hp
      have hcount := steps_of_running_drive (e := e) (r := .start e.definition c) (t := s)
        (k := e.maxSteps + 1) (p := p) (by rw [hdrive]; exact hp)
      rw [hdrive, Run.start_steps] at hcount
      have hle := hr.steps_le
      dsimp only at hcount
      omega
    exact ⟨r, t, hr, .inl ⟨hsettled, hr.runFrom_eq_of_settled hsettled⟩⟩
  · exact ⟨r, t, hr, .inr ⟨p, hp, hlimit, hr.runFrom_eq_of_limit hp hlimit⟩⟩

/-- A finished run is one on its way that was finished in some phase. -/
theorem runFrom_eq_finish (e : Engine σ) (c : Context) (s : σ) :
    ∃ r t phase, e.Reaches c s r t ∧ e.runFrom c s = e.finish { r with phase := phase } t := by
  obtain ⟨r, t, hr, ⟨-, hrun⟩ | ⟨p, -, -, hrun⟩⟩ := e.runFrom_eq_cases c s
  · exact ⟨r, t, r.phase, hr, hrun⟩
  · exact ⟨r, t, .aborted p (.stepLimit e.maxSteps), hr, hrun⟩

/-- A run on its way with nothing due is where the run ends. -/
theorem Reaches.runFrom_of_settled (h : e.Reaches c s r t) (hsettled : ∀ p, r.phase ≠ .running p) :
    (e.runFrom c s).1.context = r.context ∧ (e.runFrom c s).1.steps = r.steps ∧
      (e.runFrom c s).1.phase = r.phase := by
  rw [h.runFrom_eq_of_settled hsettled]
  simp

/-- A run on its way that has used up its steps with a node still due is cut off before it. -/
theorem Reaches.runFrom_of_limit (h : e.Reaches c s r t) (hp : r.phase = .running p)
    (hlimit : r.steps = e.maxSteps) :
    (e.runFrom c s).1.context = r.context ∧ (e.runFrom c s).1.steps = r.steps ∧
      (e.runFrom c s).1.phase = .aborted p (.stepLimit e.maxSteps) := by
  rw [h.runFrom_eq_of_limit hp hlimit]
  simp [cutOff]

/-- A run ends where nothing is due any more, or where the limit cuts it off. -/
theorem runFrom_cases (e : Engine σ) (c : Context) (s : σ) :
    ∃ r t, e.Reaches c s r t ∧ (e.runFrom c s).1.context = r.context ∧
      (e.runFrom c s).1.steps = r.steps ∧
      (((∀ p, r.phase ≠ .running p) ∧ (e.runFrom c s).1.phase = r.phase) ∨
        ∃ p, r.phase = .running p ∧ r.steps = e.maxSteps ∧
          (e.runFrom c s).1.phase = .aborted p (.stepLimit e.maxSteps)) := by
  obtain ⟨r, t, hr, ⟨hsettled, -⟩ | ⟨p, hp, hlimit, -⟩⟩ := e.runFrom_eq_cases c s
  · obtain ⟨hcontext, hsteps, hphase⟩ := hr.runFrom_of_settled hsettled
    exact ⟨r, t, hr, hcontext, hsteps, .inl ⟨hsettled, hphase⟩⟩
  · obtain ⟨hcontext, hsteps, hphase⟩ := hr.runFrom_of_limit hp hlimit
    exact ⟨r, t, hr, hcontext, hsteps, .inr ⟨p, hp, hlimit, hphase⟩⟩

end Engine

end TriageFlow
