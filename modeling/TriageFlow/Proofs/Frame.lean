import TriageFlow.Proofs.History

/-!
What the execution of a node leaves alone. The engine changes a context in two ways: it stores a
result under the id of the node, and it appends to the log (`Context.Framed`). So a step leaves what
the run was started with, the earlier entries of the log, and every value that is looked up under
another root than these two (`step_keeps_frame`); a router and a failure store nothing. A run is a
sequence of such steps, and what each leaves alone the run does (`drive_framed`).
-/

namespace TriageFlow

namespace Context

/-- A context comes from another one by adding entries to the log and by storing results under some
ids: nothing else of it changes. -/
structure Framed (c c' : Context) (entries : List LogEntry) (ids : List String) : Prop where
  input : c'.input = c.input
  content : c'.content = c.content
  traceId : c'.traceId = c.traceId
  logs : c'.logs = c.logs ++ entries
  lookup : ∀ path : Path, path.root ≠ "logs" → path.root ∉ ids → c'.lookup path = c.lookup path
  /-- The results under other ids are the same and stand in the same order. -/
  others : c'.results.filter (fun r => r.1 ∉ ids) = c.results.filter (fun r => r.1 ∉ ids)

variable {c c' c'' : Context} {entries entries' : List LogEntry} {ids ids' : List String}

theorem Framed.refl (c : Context) : c.Framed c [] [] :=
  ⟨rfl, rfl, rfl, (List.append_nil c.logs).symm, fun _ _ _ => rfl, rfl⟩

/-- Results that stay with fewer ids excepted stay with more. -/
theorem Framed.mono (h : c.Framed c' entries ids) (hsub : ids ⊆ ids') :
    c.Framed c' entries ids' := by
  refine ⟨h.input, h.content, h.traceId, h.logs,
    fun path hlogs hroot => h.lookup path hlogs fun hmem => hroot (hsub hmem), ?_⟩
  have hfilter (results : List (String × Output)) :
      results.filter (fun r => r.1 ∉ ids') =
        (results.filter (fun r => r.1 ∉ ids)).filter (fun r => r.1 ∉ ids') := by
    rw [List.filter_filter]
    refine List.filter_congr fun r _ => ?_
    by_cases hr : r.1 ∈ ids
    · simp [hr, hsub hr]
    · simp [hr]
  rw [hfilter, h.others, ← hfilter]

theorem Framed.trans (h : c.Framed c' entries ids) (h' : c'.Framed c'' entries' ids') :
    c.Framed c'' (entries ++ entries') (ids ++ ids') := by
  have hleft := h.mono (List.subset_append_left ids ids')
  have hright := h'.mono (List.subset_append_right ids ids')
  exact ⟨hright.input.trans hleft.input, hright.content.trans hleft.content,
    hright.traceId.trans hleft.traceId, by rw [hright.logs, hleft.logs, List.append_assoc],
    fun path hlogs hroot => (hright.lookup path hlogs hroot).trans (hleft.lookup path hlogs hroot),
    hright.others.trans hleft.others⟩

/-- Where no id is excepted, the results are the same. -/
theorem Framed.results_eq (h : c.Framed c' entries []) : c'.results = c.results := by
  have hall (results : List (String × Output)) :
      results.filter (fun r => r.1 ∉ ([] : List String)) = results :=
    List.filter_eq_self.mpr fun _ _ => decide_eq_true List.not_mem_nil
  rw [← hall c'.results, h.others, hall]

/-- Storing a result changes what is looked up under its id. -/
theorem framed_record (c : Context) (id : String) (o : Output) :
    c.Framed (c.record id o) [] [id] where
  input := rfl
  content := rfl
  traceId := rfl
  logs := (List.append_nil c.logs).symm
  lookup path _ hroot := by
    unfold Context.lookup root?
    rw [result?_record_of_ne fun h => hroot (List.mem_singleton.mpr h)]
    rfl
  others := by
    unfold record
    simp [List.filter_append, List.filter_filter]

/-- Appending to the log changes what is looked up in it. -/
theorem framed_log (c : Context) (entry : LogEntry) : c.Framed (c.log entry) [entry] [] where
  input := rfl
  content := rfl
  traceId := rfl
  logs := rfl
  lookup path hlogs _ := by
    unfold Context.lookup root?
    rw [if_neg hlogs, if_neg hlogs]
    rfl
  others := rfl

/-- The ids that a result is stored under after the execution of a node. -/
def storedIds (id : String) : Except Fault Outcome → List String
  | .ok (.output _) => [id]
  | _ => []

theorem storedIds_subset (id : String) (x : Except Fault Outcome) : storedIds id x ⊆ [id] := by
  unfold storedIds
  split
  · exact List.Subset.refl _
  · exact List.nil_subset _

theorem framed_keep (c : Context) (id : String) (x : Except Fault Outcome) :
    c.Framed (c.keep id x) [] (storedIds id x) := by
  cases x with
  | error fault => exact .refl c
  | ok outcome =>
    cases outcome with
    | output o => exact c.framed_record id o
    | jump target => exact .refl c

end Context

namespace Engine

variable {σ : Type} {e : Engine σ} {r : Run} {t : σ}

/-! ## One step -/

/-- An execution appends its entry and stores its output, if it has one. -/
theorem framed_absorb (e : Engine σ) (r : Run) (p : Nat) (n : Node) (x : Execution σ) :
    r.context.Framed (e.absorb r p n x).context [e.entryOf r n x]
      (Context.storedIds n.id x.outcome) := by
  have h := (r.context.framed_keep n.id x.outcome).trans
    ((r.context.keep n.id x.outcome).framed_log (e.entryOf r n x))
  rw [List.append_nil] at h
  exact h

/-- A router stores nothing, and neither does a node that fails. -/
theorem storedIds_execute {n : Node} {c : Context} {s : σ}
    (h : n.isRouter = true ∨ outcomeStatus (e.execute n c s).outcome = .failed) :
    Context.storedIds n.id (e.execute n c s).outcome = [] := by
  have hfits := e.execute_fits n c s
  cases hout : (e.execute n c s).outcome with
  | error fault => rfl
  | ok outcome =>
    rw [hout] at hfits h
    cases hfits with
    | jumped => rfl
    | fellThrough => rfl
    | gave o hplain =>
      rcases h with hrouter | hfailed
      · rw [hplain] at hrouter
        cases hrouter
      · cases hfailed

theorem framed_absorb_of_idle {n : Node} (p : Nat)
    (h : n.isRouter = true ∨ outcomeStatus (e.execute n r.context t).outcome = .failed) :
    r.context.Framed (e.absorb r p n (e.execute n r.context t)).context
      [e.entryOf r n (e.execute n r.context t)] [] :=
  storedIds_execute h ▸ e.framed_absorb r p n (e.execute n r.context t)

/-- A step executes the node that is due, or it leaves the context as it is. -/
theorem step_cases (e : Engine σ) (r : Run) (t : σ) :
    ((e.step r t).1.steps = r.steps ∧ (e.step r t).1.context = r.context) ∨
    ∃ p n, r.phase = .running p ∧ e.definition.nodes[p]? = some n ∧
      (e.step r t).1 = e.absorb r p n (e.execute n r.context t) := by
  unfold step
  split
  · next p hp =>
    split
    · exact .inl ⟨rfl, rfl⟩
    · split
      · exact .inl ⟨rfl, rfl⟩
      · next n hn => exact .inr ⟨p, n, hp, hn, rfl⟩
  · exact .inl ⟨rfl, rfl⟩

/-- A step adds entries to the log, and stores results under the ids of these only. -/
theorem step_framed (e : Engine σ) (r : Run) (t : σ) :
    ∃ entries, r.context.Framed (e.step r t).1.context entries (entries.map LogEntry.nodeId) := by
  rcases e.step_cases r t with ⟨-, hsame⟩ | ⟨p, n, -, -, hstep⟩
  · exact ⟨[], hsame ▸ .refl r.context⟩
  · rw [hstep]
    exact ⟨_, (e.framed_absorb r p n (e.execute n r.context t)).mono
      (Context.storedIds_subset n.id _)⟩

/-! ## Runs -/

/-- What each step leaves alone a loop of steps does. -/
theorem drive_framed (e : Engine σ) (k : Nat) (r : Run) (t : σ) :
    ∃ entries, r.context.Framed (e.drive k r t).1.context entries
      (entries.map LogEntry.nodeId) := by
  induction k with
  | zero => exact ⟨[], .refl r.context⟩
  | succ k ih =>
    obtain ⟨entries, h⟩ := ih
    obtain ⟨more, hmore⟩ := e.step_framed (e.drive k r t).1 (e.drive k r t).2
    rw [drive_succ']
    refine ⟨entries ++ more, ?_⟩
    rw [List.map_append]
    exact h.trans hmore

/-- From every state that a run comes to, a step either executes no node and leaves the context as it
is, or it executes the node that is due. Then the log has one entry more, and beside the log at most
what is found under the id of the node changes; for a router and for a failure not even that. So a
state differs from an earlier one only by what the nodes executed since have left. -/
theorem step_keeps_frame (e : Engine σ) {registered : String → Bool} {warnings : List Warning}
    (h : e.definition.check registered = .ok warnings) (c : Context) (s : σ) (k : Nat) :
    let before := (e.drive k (.start e.definition c) s).1
    let after := (e.drive (k + 1) (.start e.definition c) s).1
    ((after.steps = before.steps ∧ after.context = before.context) ∨
      ∃ p n entry, before.phase = .running p ∧ e.definition.nodes[p]? = some n ∧
        entry.nodeId = n.id ∧ after.steps = before.steps + 1 ∧
        before.context.Framed after.context [entry] [n.id] ∧
        (n.isRouter = true ∨ entry.status = .failed →
          after.context.results = before.context.results ∧
          ∀ path : Path, path.root = n.id →
            after.context.lookup path = before.context.lookup path)) ∧
    ∀ j, ∃ entries, before.context.Framed (e.drive (k + j) (.start e.definition c) s).1.context
      entries (entries.map LogEntry.nodeId) := by
  intro before after
  refine ⟨?_, fun j => ?_⟩
  · have hafter : after = (e.step before (e.drive k (.start e.definition c) s).2).1 :=
      congrArg Prod.fst (drive_succ' k)
    rw [hafter]
    refine (e.step_cases before _).imp_right ?_
    rintro ⟨p, n, hp, hn, hstep⟩
    rw [hstep]
    refine ⟨p, n, _, hp, hn, rfl, rfl,
      (e.framed_absorb before p n _).mono (Context.storedIds_subset n.id _), fun hor => ?_⟩
    have hidle := framed_absorb_of_idle p hor
    have hid : n.id ∉ Context.reservedKeys :=
      ((Definition.check_eq_ok_iff.mp h).1.sound n (List.mem_of_getElem? hn)).unreserved
    have hlogs : n.id ≠ "logs" := fun heq => hid (heq ▸ by decide)
    exact ⟨hidle.results_eq, fun path hroot =>
      hidle.lookup path (hroot ▸ hlogs) List.not_mem_nil⟩
  · rw [drive_add]
    exact e.drive_framed j _ _

/-- The third step executes the transform again: it fails, and the log has one entry more, while
the result of the first execution stays. -/
theorem stampLoop_step_keeps_frame :
    let before := (stampLoop.drive 2 (.start stampLoop.definition (.start .null "trace")) ()).1
    let after := (stampLoop.drive 3 (.start stampLoop.definition (.start .null "trace")) ()).1
    stampLoop.definition.check stampLoop.transforms.contains = .ok [.backward "again" "stamp"] ∧
    before.steps = 2 ∧ after.steps = 3 ∧
    before.context.results = [("stamp", .transform (.string "first"))] ∧
    ∃ entry, entry.nodeId = "stamp" ∧ entry.status = .failed ∧
      before.context.Framed after.context [entry] ["stamp"] ∧
      after.context.results = before.context.results := by
  intro before after
  have hcheck : stampLoop.definition.check stampLoop.transforms.contains =
      .ok [.backward "again" "stamp"] := rfl
  have hphase : before.phase = .running 0 := rfl
  have hlast : after.context.logs.getLast?.map LogEntry.status = some .failed := rfl
  refine ⟨hcheck, rfl, rfl, rfl, ?_⟩
  rcases (step_keeps_frame stampLoop hcheck (.start .null "trace") () 2).1 with
    ⟨hsteps, -⟩ | ⟨p, n, entry, hp, hn, hid, -, hframed, hkept⟩
  · exact absurd hsteps (by decide)
  · obtain rfl : 0 = p := Phase.running.inj (hphase.symm.trans hp)
    obtain rfl : ⟨"stamp", none, false, .transform "once"⟩ = n := Option.some.inj hn
    have hfailed : entry.status = .failed := by
      rw [hframed.logs, List.getLast?_concat] at hlast
      exact Option.some.inj hlast
    exact ⟨entry, hid, hfailed, hframed, (hkept (.inr hfailed)).1⟩

end Engine

end TriageFlow
