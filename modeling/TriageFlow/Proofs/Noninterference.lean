import TriageFlow.Proofs.Calls
import TriageFlow.Proofs.Events

/-!
What the faults of collaborators cannot reach. Two runs of an engine differ in the states that its
collaborators start from, and so in what they are answered. Where the answers to each call agree up
to the cause of a failure (`Answer.Alike`), the runs keep side by side: the same node is due in the
same context, and the same is asked (`Reaches.follow`). They end alike, with the same report and the
same reply, but for what was told of substitutes and of the save (`Run.Alike`).
-/

namespace TriageFlow

open Json (Value)

/-! ## Answers -/

/-- Whether two results are the same success, or both of them failures. -/
def AgreeOrFail {α : Type} (x y : Except Fault α) : Prop :=
  (∃ a, x = .ok a ∧ y = .ok a) ∨ ∃ fault fault', x = .error fault ∧ y = .error fault'

/-- Whether an answer came that could not be read. -/
def Malformed (x : Except Fault Completion) : Prop :=
  ∃ detail, x = .error (.malformedOutput detail)

namespace Answer

/-- Whether two answers agree up to the cause of a failure. It counts whether an answer that was to
be structured could not be read; what becomes of a save counts for nothing. -/
def Alike : Answer → Answer → Prop
  | recalled x, recalled y => AgreeOrFail x y
  | completed .json x, completed .json y => AgreeOrFail x y ∧ (Malformed x ↔ Malformed y)
  | completed _ x, completed _ y => AgreeOrFail x y
  | _, _ => True

/-- Whether the answers to the calls of two runs are alike, the first to the first and so on. -/
def AllAlike (xs ys : List Answer) : Prop :=
  ∀ (k : Nat) (x y : Answer), xs[k]? = some x → ys[k]? = some y → x.Alike y

end Answer

namespace Engine

variable {σ : Type}

/-- The answers to some calls. -/
def answers (e : Engine σ) : List Call → σ → List Answer
  | [], _ => []
  | call :: rest, s => (e.answer s call).1 :: e.answers rest (e.answer s call).2

end Engine

/-! ## Runs that keep side by side -/

/-- Whether two events tell the same, up to the cause of a substitute and to what became of the
save. -/
inductive EventKind.Alike : EventKind → EventKind → Prop
  | same (kind : EventKind) : Alike kind kind
  | degraded (node service : String) (fault fault' : Fault) :
      Alike (.degraded node service fault) (.degraded node service fault')
  | saved {kind kind' : EventKind} (h : kind.tellsSave = true) (h' : kind'.tellsSave = true) :
      Alike kind kind'

/-- Events of one trace id that tell the same in this sense. -/
structure Event.Alike (x y : Event) : Prop where
  traceId : x.traceId = y.traceId
  kind : x.kind.Alike y.kind

/-- Executions that differ in the cause of a failure only. -/
structure Execution.Alike {σ : Type} (x y : Execution σ) : Prop where
  outcome : x.outcome = y.outcome
  calls : x.calls = y.calls
  events : List.Forall₂ EventKind.Alike x.events y.events

/-- Runs that differ in what was told of substitutes and of the save only. -/
structure Run.Alike (r r' : Run) : Prop where
  context : r.context = r'.context
  phase : r.phase = r'.phase
  steps : r.steps = r'.steps
  calls : r.calls = r'.calls
  events : List.Forall₂ Event.Alike r.events r'.events
  elapsed : r.elapsed = r'.elapsed

theorem EventKind.alike_refl (kinds : List EventKind) : List.Forall₂ Alike kinds kinds :=
  List.forall₂_same.mpr fun kind _ => .same kind

theorem Event.alike_map_mk {kinds kinds' : List EventKind}
    (h : List.Forall₂ EventKind.Alike kinds kinds') (traceId : String) :
    List.Forall₂ Event.Alike (kinds.map (mk traceId)) (kinds'.map (mk traceId)) := by
  rw [List.forall₂_map_left_iff, List.forall₂_map_right_iff]
  exact h.imp fun _ _ hkind => ⟨rfl, hkind⟩

namespace Run.Alike

variable {r r' : Run}

theorem refl (r : Run) : r.Alike r :=
  ⟨rfl, rfl, rfl, rfl, List.forall₂_same.mpr fun event _ => ⟨rfl, .same event.kind⟩, rfl⟩

theorem setPhase (h : r.Alike r') (phase : Phase) :
    Run.Alike { r with phase := phase } { r' with phase := phase } :=
  ⟨h.context, rfl, h.steps, h.calls, h.events, h.elapsed⟩

/-- How a run ended, its report and its reply do not hold what was told. -/
theorem status_eq (h : r.Alike r') : r.status = r'.status := Run.status_congr h.phase

theorem report_eq (h : r.Alike r') : r.report = r'.report := by
  have hfault : r.fault? = r'.fault? := by
    unfold fault?
    rw [h.phase]
  unfold report
  rw [h.status_eq, h.steps, hfault, h.elapsed, h.context]

theorem reply_eq (h : r.Alike r') (replies : Replies) : r.reply replies = r'.reply replies := by
  unfold reply
  rw [h.status_eq, h.context]

end Run.Alike

namespace Engine

variable {σ : Type} {e : Engine σ}

/-! ## One execution -/

/-- A node asks at most once. -/
theorem asks_cases (e : Engine σ) (n : Node) (c : Context) :
    e.asks n c = [] ∨ ∃ call, e.asks n c = [call] := by
  have orNothing (b : Bool) (call : Call) :
      (if b then [call] else []) = [] ∨ ∃ only, (if b then [call] else []) = [only] := by
    cases b with
    | true => exact .inr ⟨call, rfl⟩
    | false => exact .inl rfl
  unfold asks
  split
  · exact orNothing _ _
  · exact orNothing _ _
  · exact orNothing _ _
  · exact orNothing _ _
  · exact .inl rfl
  · exact .inl rfl

variable {c : Context} {s s' t t' : σ}

/-- A recall whose results agree up to the cause of a failure. -/
theorem retrieve_alike (node query : String)
    (h : ∀ call ∈ (e.retrieve node query c t).calls,
      (e.answer t call).1.Alike (e.answer t' call).1) :
    (e.retrieve node query c t).Alike (e.retrieve node query c t') := by
  rw [retrieve_calls] at h
  unfold retrieve
  cases hmemory : e.collaborators.memory with
  | none => exact ⟨rfl, rfl, EventKind.alike_refl _⟩
  | some memory =>
    simp only [hmemory, Option.isSome_some, if_true, List.mem_singleton, forall_eq, answer,
      Answer.Alike] at h
    dsimp only
    rcases h with ⟨hits, hx, hy⟩ | ⟨fault, fault', hx, hy⟩
    · rw [hx, hy]
      exact ⟨rfl, rfl, .nil⟩
    · rw [hx, hy]
      exact ⟨rfl, rfl, .cons (.degraded _ _ _ _) .nil⟩

/-- A generation whose results agree up to the cause of a failure. -/
theorem generate_alike (node prompt : String)
    (h : ∀ call ∈ (e.generate node prompt c t).calls,
      (e.answer t call).1.Alike (e.answer t' call).1) :
    (e.generate node prompt c t).Alike (e.generate node prompt c t') := by
  rw [generate_calls] at h
  unfold generate
  cases hgenerative : e.collaborators.generative with
  | none => exact ⟨rfl, rfl, EventKind.alike_refl _⟩
  | some generative =>
    simp only [hgenerative, Option.isSome_some, if_true, List.mem_singleton, forall_eq, answer,
      Answer.Alike] at h
    dsimp only
    rcases h with ⟨completion, hx, hy⟩ | ⟨fault, fault', hx, hy⟩
    · rw [hx, hy]
      exact ⟨rfl, rfl, .nil⟩
    · rw [hx, hy]
      exact ⟨rfl, rfl, .cons (.degraded _ _ _ _) .nil⟩

/-- An analysis that failed, other than on an answer that could not be read. -/
theorem analyze_of_fault (node : String) {generative : Generative σ} {prompt : String}
    {fault : Fault}
    (hgenerative : e.collaborators.generative = some generative)
    (hx : (generative.complete (some e.timeout) .json (Template.interpolate prompt c) t).1.within
      e.timeout "generative" = .error fault) (hfault : ¬Malformed (.error fault)) :
    (e.analyze node prompt c t).outcome = .ok (.output (.analysis .degraded)) ∧
      (e.analyze node prompt c t).events = [.degraded node generative.name fault] := by
  unfold analyze
  rw [hgenerative]
  dsimp only
  rw [hx]
  split
  · next hresult => cases hresult
  · next detail hresult => exact absurd ⟨detail, hresult⟩ hfault
  · next hresult =>
    cases hresult
    exact ⟨rfl, rfl⟩

/-- An analysis whose results agree up to the cause of a failure, and on whether an answer came that
could not be read. -/
theorem analyze_alike (node prompt : String)
    (h : ∀ call ∈ (e.analyze node prompt c t).calls,
      (e.answer t call).1.Alike (e.answer t' call).1) :
    (e.analyze node prompt c t).Alike (e.analyze node prompt c t') := by
  have hcalls : (e.analyze node prompt c t).calls = (e.analyze node prompt c t').calls := by
    rw [analyze_calls, analyze_calls]
  rw [analyze_calls] at h
  cases hgenerative : e.collaborators.generative with
  | none =>
    unfold analyze
    rw [hgenerative]
    exact ⟨rfl, rfl, EventKind.alike_refl _⟩
  | some generative =>
    simp only [hgenerative, Option.isSome_some, if_true, List.mem_singleton, forall_eq, answer,
      Answer.Alike] at h
    obtain ⟨⟨completion, hx, hy⟩ | ⟨fault, fault', hx, hy⟩, hmalformed⟩ := h
    · unfold analyze
      rw [hgenerative]
      dsimp only
      rw [hx, hy]
      exact ⟨rfl, rfl, .nil⟩
    · rw [hx, hy] at hmalformed
      by_cases hread : Malformed (.error fault)
      · obtain ⟨detail, rfl⟩ : ∃ detail, fault = .malformedOutput detail := by
          simpa [Malformed] using hread
        obtain ⟨detail', rfl⟩ : ∃ detail, fault' = .malformedOutput detail := by
          simpa [Malformed] using hmalformed.mp hread
        unfold analyze
        rw [hgenerative]
        dsimp only
        rw [hx, hy]
        exact ⟨rfl, rfl, .nil⟩
      · obtain ⟨houtcome, hevents⟩ := analyze_of_fault node hgenerative hx hread
        obtain ⟨houtcome', hevents'⟩ :=
          analyze_of_fault node hgenerative hy (mt hmalformed.mpr hread)
        refine ⟨houtcome.trans houtcome'.symm, hcalls, ?_⟩
        rw [hevents, hevents']
        exact .cons (.degraded _ _ _ _) .nil

/-- An execution whose answers are alike. -/
theorem execute_alike (n : Node)
    (h : ∀ call ∈ (e.execute n c t).calls, (e.answer t call).1.Alike (e.answer t' call).1) :
    (e.execute n c t).Alike (e.execute n c t') := by
  unfold execute at h ⊢
  cases hkind : n.kind with
  | transform name => exact ⟨rfl, rfl, .nil⟩
  | route rules => exact ⟨rfl, rfl, EventKind.alike_refl _⟩
  | retrieve query =>
    rw [hkind] at h
    exact retrieve_alike n.id query h
  | analyze prompt =>
    rw [hkind] at h
    exact analyze_alike n.id prompt h
  | generate prompt =>
    rw [hkind] at h
    exact generate_alike n.id prompt h
  | action action payload =>
    dsimp only
    unfold act
    cases e.collaborators.actions with
    | none => exact ⟨rfl, rfl, .nil⟩
    | some submit => exact ⟨rfl, rfl, .nil⟩

/-! ## Two runs -/

variable {r : Run}

theorem answers_getElem? (e : Engine σ) (earlier later : List Call) (call : Call) (s : σ) :
    (e.answers (earlier ++ call :: later) s)[earlier.length]? =
      some (e.answer (e.after earlier s) call).1 := by
  induction earlier generalizing s with
  | nil => rfl
  | cons first rest ih =>
    rw [List.cons_append, answers, List.length_cons, List.getElem?_cons_succ, ih]
    rfl

/-- The answers to a node of a run on its way stand among the answers of the whole run. -/
theorem Reaches.answers_getElem? {p : Nat} {n : Node} {call : Call} (h : e.Reaches c s r t)
    (hp : r.phase = .running p) (hlimit : r.steps < e.maxSteps)
    (hn : e.definition.nodes[p]? = some n) (hcall : e.asks n r.context = [call]) :
    (e.answers (e.runFrom c s).1.calls s)[r.calls.length]? = some (e.answer t call).1 := by
  obtain ⟨later, hlater⟩ := (Reaches.visit h hp hlimit hn).precedes_runFrom.calls
  have hcalls : (e.absorb r p n (e.execute n r.context t)).calls = r.calls ++ [call] := by
    rw [← hcall, ← e.execute_calls n r.context t]
    rfl
  rw [← hlater, hcalls, List.append_assoc, List.singleton_append, Engine.answers_getElem?,
    ← h.state_eq]

theorem absorb_alike {r r' : Run} (h : r.Alike r') (p : Nat) (n : Node) {x y : Execution σ}
    (hxy : x.Alike y) : (e.absorb r p n x).Alike (e.absorb r' p n y) := by
  refine ⟨?_, ?_, ?_, ?_, ?_, h.elapsed⟩
  · rw [absorb_context, absorb_context, entryOf, entryOf, h.context, hxy.outcome]
  · rw [absorb_phase, absorb_phase, hxy.outcome]
  · rw [absorb_steps, absorb_steps, h.steps]
  · unfold absorb
    rw [h.calls, hxy.calls]
  · unfold absorb Run.tell
    dsimp only
    rw [h.context, hxy.outcome]
    exact List.rel_append h.events
      (Event.alike_map_mk (List.rel_append hxy.events (EventKind.alike_refl _)) _)

/-- A run keeps side by side with another whose answers are alike. -/
theorem Reaches.follow
    (hanswers : Answer.AllAlike (e.answers (e.runFrom c s).1.calls s)
      (e.answers (e.runFrom c s').1.calls s'))
    (h : e.Reaches c s r t) : ∃ r' t', e.Reaches c s' r' t' ∧ r.Alike r' := by
  induction h with
  | start => exact ⟨_, _, .start, .refl _⟩
  | @visit r t p n earlier due allowed node ih =>
    obtain ⟨r', t', hr', halike⟩ := ih
    have hdue := halike.phase.symm.trans due
    have hallowed : r'.steps < e.maxSteps := halike.steps ▸ allowed
    have hexecution : (e.execute n r.context t).Alike (e.execute n r'.context t') := by
      rw [← halike.context]
      refine execute_alike n fun call hcall => ?_
      rw [execute_calls] at hcall
      rcases e.asks_cases n r.context with hnone | ⟨only, honly⟩
      · rw [hnone] at hcall
        cases hcall
      · rw [honly, List.mem_singleton] at hcall
        subst hcall
        refine hanswers r.calls.length _ _ (earlier.answers_getElem? due allowed node honly) ?_
        rw [halike.calls]
        exact hr'.answers_getElem? hdue hallowed node (halike.context ▸ honly)
    exact ⟨_, _, .visit hr' hdue hallowed node, absorb_alike halike p n hexecution⟩

/-- Whatever is told of two saves, it is told alike. -/
theorem TellsSave.alike {saved saved' : List EventKind} (h : e.TellsSave saved)
    (h' : e.TellsSave saved') : List.Forall₂ EventKind.Alike saved saved' := by
  unfold TellsSave at h h'
  split at h
  · next hmemory =>
    rw [if_pos hmemory] at h'
    obtain ⟨kind, rfl, hkind⟩ := h
    obtain ⟨kind', rfl, hkind'⟩ := h'
    exact .cons (.saved hkind hkind') .nil
  · next hmemory =>
    rw [if_neg hmemory] at h'
    rw [h, h']
    exact .nil

theorem finish_alike {r r' : Run} (h : r.Alike r') (t t' : σ) :
    (e.finish r t).1.Alike (e.finish r' t').1 := by
  refine ⟨?_, ?_, ?_, ?_, ?_, ?_⟩
  · rw [finish_context, finish_context, h.context]
  · rw [finish_phase, finish_phase, h.phase]
  · rw [finish_steps, finish_steps, h.steps]
  · rw [finish_calls, finish_calls, savesOf, savesOf, metadata, metadata, h.calls, h.context,
      h.status_eq]
  · obtain ⟨saved, hsaved, hevents⟩ := e.finish_events r t
    obtain ⟨saved', hsaved', hevents'⟩ := e.finish_events r' t'
    rw [hevents, hevents', h.context, h.status_eq, h.steps]
    exact List.rel_append h.events
      (Event.alike_map_mk (List.rel_append (hsaved.alike hsaved') (EventKind.alike_refl _)) _)
  · rw [finish_elapsed, finish_elapsed, h.context, h.steps]

/-- Two runs of an engine on one inbound record whose answers agree up to the cause of a failure
have the same report and the same reply, ask the same, and tell the same up to what they tell of
substitutes and of the save. The state of the collaborators stands for all that they may do, so the
two runs may be answered by any two collaborators. -/
theorem faults_do_not_interfere (e : Engine σ) (input : Value) (traceId : String) (s s' : σ)
    (h : Answer.AllAlike (e.answers (e.run input traceId s).1.calls s)
      (e.answers (e.run input traceId s').1.calls s')) :
    (e.run input traceId s).1.Alike (e.run input traceId s').1 ∧
    (e.run input traceId s).1.report = (e.run input traceId s').1.report ∧
    ∀ replies, (e.run input traceId s).1.reply replies =
      (e.run input traceId s').1.reply replies := by
  have halike : (e.run input traceId s).1.Alike (e.run input traceId s').1 := by
    unfold run at h ⊢
    obtain ⟨r, t, hr, ⟨hsettled, hrun⟩ | ⟨p, hp, hlimit, hrun⟩⟩ :=
      e.runFrom_eq_cases (.start input traceId) s
    · obtain ⟨r', t', hr', hfollow⟩ := hr.follow h
      rw [hrun, hr'.runFrom_eq_of_settled (hfollow.phase ▸ hsettled)]
      exact finish_alike hfollow t t'
    · obtain ⟨r', t', hr', hfollow⟩ := hr.follow h
      rw [hrun, hr'.runFrom_eq_of_limit (hfollow.phase ▸ hp) (hfollow.steps ▸ hlimit)]
      exact finish_alike (hfollow.setPhase _) t t'
  exact ⟨halike, halike.report_eq, halike.reply_eq⟩

/-- A clinic where everything fails, in one of two ways. -/
def clinic : Engine Bool where
  definition := ⟨"clinic", [⟨"seen", none, false, .retrieve "{{content}}"⟩,
    ⟨"mood", none, false, .analyze "{{seen}}"⟩,
    ⟨"reply", none, true, .generate "{{seen}} {{mood.is_urgent}}"⟩]⟩
  collaborators :=
    { generative := some ⟨"model", fun _ mode _ s =>
        match mode, s with
        | .json, true => (.settled (.error (.malformedOutput "secret")) 0, s)
        | .json, false => (.settled (.error (.malformedOutput "")) 0, s)
        | .text, true => (.settled (.error (.service "model" "secret")) 0, s)
        | .text, false => (.never, s)⟩
      memory := some ⟨fun _ s =>
        (if s then .settled (.error (.service "memory" "secret")) 0 else .never, s),
        fun _ _ s => (if s then .settled (.ok ()) 0 else .never, s)⟩
      actions := none }
  transforms := []
  replies := .standard
  maxSteps := 9
  timeout := 1000
  now := .standing ⟨0⟩

/-- Neither the report nor the second prompt holds what one of the two ways tells. -/
theorem clinic_faults_do_not_interfere :
    Answer.AllAlike (clinic.answers (clinic.run .null "trace" true).1.calls true)
      (clinic.answers (clinic.run .null "trace" false).1.calls false) ∧
    (clinic.run .null "trace" true).1.report = (clinic.run .null "trace" false).1.report ∧
    (clinic.run .null "trace" true).1.calls = (clinic.run .null "trace" false).1.calls ∧
    (clinic.run .null "trace" true).1.calls.take 3 = [.retrieve "Empty",
      .complete .json "Memory error", .complete .text "Memory error false"] := by
  have htrue : clinic.answers (clinic.run .null "trace" true).1.calls true =
      [.recalled (.error (.service "memory" "secret")),
        .completed .json (.error (.malformedOutput "secret")),
        .completed .text (.error (.service "model" "secret")), .saved (.ok ())] := rfl
  have hfalse : clinic.answers (clinic.run .null "trace" false).1.calls false =
      [.recalled (.error (.timeout "memory" 1)), .completed .json (.error (.malformedOutput "")),
        .completed .text (.error (.timeout "generative" 1)),
        .saved (.error (.timeout "memory" 1))] := rfl
  have halike : Answer.AllAlike (clinic.answers (clinic.run .null "trace" true).1.calls true)
      (clinic.answers (clinic.run .null "trace" false).1.calls false) := by
    rw [htrue, hfalse]
    intro k x y hx hy
    rcases k with _ | _ | _ | _ | k
    · cases hx
      cases hy
      exact .inr ⟨_, _, rfl, rfl⟩
    · cases hx
      cases hy
      exact ⟨.inr ⟨_, _, rfl, rfl⟩, fun _ => ⟨_, rfl⟩, fun _ => ⟨_, rfl⟩⟩
    · cases hx
      cases hy
      exact .inr ⟨_, _, rfl, rfl⟩
    · cases hx
      cases hy
      trivial
    · cases hx
  obtain ⟨hruns, hreport, -⟩ := faults_do_not_interfere clinic .null "trace" true false halike
  exact ⟨halike, hreport, hruns.calls, rfl⟩

end Engine

end TriageFlow
