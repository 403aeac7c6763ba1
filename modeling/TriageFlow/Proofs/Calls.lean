import TriageFlow.Proofs.History
import TriageFlow.Proofs.Layout

/-!
What a run asks of its collaborators, read off its log. The kind of a node and the context that it
finds say which call it makes, if any (`asks`), whatever the collaborators answer. A log tells the
context that each of its nodes found as far as a template can see it (`Reaches.lookup_eq_told`), and
so it tells every call of the run, in order (`callsOf`); what is saved at the end is told by the
record and the status (`finalSave`). The calls are those that the collaborators see: asked one after
another (`after`), they take the collaborators to the state in which the run leaves them
(`Reaches.state_eq`).
-/

namespace TriageFlow

open Json (Value)

/-! ## The context that a log tells -/

namespace Context

theorem result?_map_toValue (c : Context) (id : String) :
    (c.result? id).map Output.toValue = c.stored.lookup id := by
  unfold result? stored
  induction c.results with
  | nil => rfl
  | cons r rest ih =>
    rw [List.map_cons, List.lookup_cons, List.lookup_cons]
    cases id == r.1 with
    | true => rfl
    | false => exact ih

/-- A path sees no more of the results than their values. -/
theorem lookup_congr {c c' : Context} (hinput : c.input = c'.input)
    (hcontent : c.content = c'.content) (htrace : c.traceId = c'.traceId)
    (hlogs : c.logs = c'.logs) (hstored : c.stored = c'.stored) (path : Path) :
    c.lookup path = c'.lookup path := by
  have hroot : c.root? path.root = c'.root? path.root := by
    unfold root?
    rw [result?_map_toValue, result?_map_toValue, hinput, hcontent, htrace, hlogs, hstored]
  unfold lookup
  rw [hroot]

end Context

namespace Definition

/-- The node of an id. -/
def node? (d : Definition) (id : String) : Option Node := d.nodes.find? fun n => n.id == id

theorem Valid.node?_eq {d : Definition} {registered : String → Bool} (hd : d.Valid registered)
    {n : Node} (hn : n ∈ d.nodes) : d.node? n.id = some n := by
  cases hfound : d.node? n.id with
  | none =>
    have hnone := List.find?_eq_none.mp hfound n hn
    simp at hnone
  | some m =>
    have hid : m.id = n.id := by simpa using List.find?_some hfound
    rw [hd.node_inj (List.mem_of_find?_eq_some hfound) hn hid]

/-- The context of a run on an inbound record after the entries of a log. -/
def told (d : Definition) (input : Value) (traceId : String) (log : List LogEntry) : Context where
  input := input
  content := Context.contentOf input
  traceId := traceId
  results := (d.lastStores log).map fun a => (a.nodeId, .transform a.output)
  logs := log

theorem stored_told (d : Definition) (input : Value) (traceId : String) (log : List LogEntry) :
    (d.told input traceId log).stored = (d.lastStores log).map LogEntry.written := by
  unfold told Context.stored
  rw [List.map_map]
  rfl

end Definition

/-- What comes back for a call, as far as the engine waits for it. -/
inductive Answer where
  | recalled (result : Except Fault (List Hit))
  | completed (mode : Mode) (result : Except Fault Completion)
  | saved (result : Except Fault Unit)
  /-- Nothing comes back for a submission, or where there is nobody to be asked. -/
  | unanswered

namespace Engine

variable {σ : Type} {e : Engine σ} {registered : String → Bool} {input : Value} {traceId : String}
  {s t : σ} {r : Run}

/-- No path tells the context of a run from the one that its log tells. -/
theorem Reaches.lookup_eq_told (hd : e.definition.Valid registered)
    (h : e.Reaches (.start input traceId) s r t) (path : Path) :
    r.context.lookup path = (e.definition.told input traceId r.context.logs).lookup path := by
  obtain ⟨hinput, hcontent, htrace⟩ := h.origin
  have hstored : r.context.stored =
      (e.definition.told input traceId r.context.logs).stored := by
    rw [h.results_eq hd ⟨rfl, rfl⟩, Definition.stored_told]
  refine Context.lookup_congr ?_ ?_ ?_ ?_ hstored path
  · exact hinput
  · exact hcontent
  · exact htrace
  · rfl

/-! ## The calls of a node -/

/-- What a node asks of the collaborators in a context, if they are there to be asked. -/
def asks (e : Engine σ) (n : Node) (c : Context) : List Call :=
  match n.kind with
  | .retrieve query =>
    if e.collaborators.memory.isSome then [.retrieve (Template.interpolate query c)] else []
  | .analyze prompt =>
    if e.collaborators.generative.isSome then [.complete .json (Template.interpolate prompt c)]
    else []
  | .generate prompt =>
    if e.collaborators.generative.isSome then [.complete .text (Template.interpolate prompt c)]
    else []
  | .action action payload =>
    if e.collaborators.actions.isSome then
      [.submit ⟨action, payloadOf payload c, c.traceId,
        e.now.present c.traceId c.logs.length⟩]
    else []
  | .route _ => []
  | .transform _ => []

theorem retrieve_calls (e : Engine σ) (node query : String) (c : Context) (s : σ) :
    (e.retrieve node query c s).calls =
      if e.collaborators.memory.isSome then [.retrieve (Template.interpolate query c)] else [] := by
  unfold retrieve
  cases e.collaborators.memory with
  | none => rfl
  | some memory =>
    dsimp only
    split
    · rfl
    · rfl

theorem analyze_calls (e : Engine σ) (node prompt : String) (c : Context) (s : σ) :
    (e.analyze node prompt c s).calls =
      if e.collaborators.generative.isSome then [.complete .json (Template.interpolate prompt c)]
      else [] := by
  unfold analyze
  cases e.collaborators.generative with
  | none => rfl
  | some generative =>
    dsimp only
    split
    · rfl
    · rfl
    · rfl

theorem generate_calls (e : Engine σ) (node prompt : String) (c : Context) (s : σ) :
    (e.generate node prompt c s).calls =
      if e.collaborators.generative.isSome then [.complete .text (Template.interpolate prompt c)]
      else [] := by
  unfold generate
  cases e.collaborators.generative with
  | none => rfl
  | some generative =>
    dsimp only
    split
    · rfl
    · rfl

theorem act_calls (e : Engine σ) (action : String) (payload : Value) (c : Context) (s : σ) :
    (e.act action payload c s).calls =
      if e.collaborators.actions.isSome then
        [.submit ⟨action, payloadOf payload c, c.traceId,
          e.now.present c.traceId c.logs.length⟩]
      else [] := by
  unfold act
  cases e.collaborators.actions with
  | none => rfl
  | some submit => rfl

/-- The calls of a node do not depend on what the collaborators answer. -/
theorem execute_calls (e : Engine σ) (n : Node) (c : Context) (s : σ) :
    (e.execute n c s).calls = e.asks n c := by
  unfold execute asks
  cases n.kind with
  | transform name => rfl
  | retrieve query => exact e.retrieve_calls n.id query c s
  | analyze prompt => exact e.analyze_calls n.id prompt c s
  | generate prompt => exact e.generate_calls n.id prompt c s
  | route rules => rfl
  | action action payload => exact e.act_calls action payload c s

/-- A node asks the same in contexts of one trace id and one log that no path tells apart. -/
theorem asks_congr (e : Engine σ) (n : Node) {c c' : Context}
    (h : ∀ path, c.lookup path = c'.lookup path) (htrace : c.traceId = c'.traceId)
    (hlogs : c.logs = c'.logs) : e.asks n c = e.asks n c' := by
  have hfill (template : String) : Template.interpolate template c =
      Template.interpolate template c' := Template.interpolate_congr fun path _ => h path
  have hpayload (payload : Value) : payloadOf payload c = payloadOf payload c' := by
    unfold payloadOf
    split
    · rw [hfill]
    · rfl
  unfold asks
  split <;> simp only [hfill, hpayload, htrace, hlogs]

/-! ## The collaborators after some calls -/

/-- The answer to a call, and the state of the collaborators after it. -/
def answer (e : Engine σ) (s : σ) : Call → Answer × σ
  | .retrieve query =>
    match e.collaborators.memory with
    | some memory =>
      let (ending, s) := memory.retrieve query s
      (.recalled (ending.within e.timeout "memory"), s)
    | none => (.unanswered, s)
  | .complete mode prompt =>
    match e.collaborators.generative with
    | some generative =>
      let (ending, s) := generative.complete (some e.timeout) mode prompt s
      (.completed mode (ending.within e.timeout "generative"), s)
    | none => (.unanswered, s)
  | .submit request =>
    match e.collaborators.actions with
    | some submit => (.unanswered, submit request s)
    | none => (.unanswered, s)
  | .save content metadata =>
    match e.collaborators.memory with
    | some memory =>
      let (ending, s) := memory.save content metadata s
      (.saved (ending.within e.timeout "memory"), s)
    | none => (.unanswered, s)

/-- The state of the collaborators after some calls. -/
def after (e : Engine σ) (calls : List Call) (s : σ) : σ :=
  calls.foldl (fun s call => (e.answer s call).2) s

theorem answer_retrieve (e : Engine σ) {memory : Memory σ}
    (h : e.collaborators.memory = some memory) (query : String) (s : σ) :
    (e.answer s (.retrieve query)).2 = (memory.retrieve query s).2 := by
  simp only [answer, h]

theorem answer_complete (e : Engine σ) {generative : Generative σ}
    (h : e.collaborators.generative = some generative) (mode : Mode) (prompt : String) (s : σ) :
    (e.answer s (.complete mode prompt)).2 =
      (generative.complete (some e.timeout) mode prompt s).2 := by
  simp only [answer, h]

theorem after_append (e : Engine σ) (earlier later : List Call) (s : σ) :
    e.after (earlier ++ later) s = e.after later (e.after earlier s) :=
  List.foldl_append

theorem retrieve_state (e : Engine σ) (node query : String) (c : Context) (s : σ) :
    (e.retrieve node query c s).state = e.after (e.retrieve node query c s).calls s := by
  unfold retrieve
  cases hmemory : e.collaborators.memory with
  | none => rfl
  | some memory =>
    have hanswer := e.answer_retrieve hmemory (Template.interpolate query c) s
    dsimp only
    split
    · exact hanswer.symm
    · exact hanswer.symm

theorem analyze_state (e : Engine σ) (node prompt : String) (c : Context) (s : σ) :
    (e.analyze node prompt c s).state = e.after (e.analyze node prompt c s).calls s := by
  unfold analyze
  cases hgenerative : e.collaborators.generative with
  | none => rfl
  | some generative =>
    have hanswer := e.answer_complete hgenerative .json (Template.interpolate prompt c) s
    dsimp only
    split
    · exact hanswer.symm
    · exact hanswer.symm
    · exact hanswer.symm

theorem generate_state (e : Engine σ) (node prompt : String) (c : Context) (s : σ) :
    (e.generate node prompt c s).state = e.after (e.generate node prompt c s).calls s := by
  unfold generate
  cases hgenerative : e.collaborators.generative with
  | none => rfl
  | some generative =>
    have hanswer := e.answer_complete hgenerative .text (Template.interpolate prompt c) s
    dsimp only
    split
    · exact hanswer.symm
    · exact hanswer.symm

theorem act_state (e : Engine σ) (action : String) (payload : Value) (c : Context) (s : σ) :
    (e.act action payload c s).state = e.after (e.act action payload c s).calls s := by
  unfold act
  cases hactions : e.collaborators.actions with
  | none => rfl
  | some submit =>
    show submit _ s = (e.answer s (.submit _)).2
    simp only [answer, hactions]

/-- An execution leaves the collaborators in the state after its calls. -/
theorem execute_state (e : Engine σ) (n : Node) (c : Context) (s : σ) :
    (e.execute n c s).state = e.after (e.execute n c s).calls s := by
  unfold execute
  cases n.kind with
  | transform name => rfl
  | retrieve query => exact e.retrieve_state n.id query c s
  | analyze prompt => exact e.analyze_state n.id prompt c s
  | generate prompt => exact e.generate_state n.id prompt c s
  | route rules => rfl
  | action action payload => exact e.act_state action payload c s

/-- A run on its way has left the collaborators in the state after its calls. -/
theorem Reaches.state_eq {c : Context} (h : e.Reaches c s r t) : t = e.after r.calls s := by
  induction h with
  | start => rfl
  | @visit r t p n earlier due allowed node ih =>
    have hcalls : (e.absorb r p n (e.execute n r.context t)).calls =
        r.calls ++ (e.execute n r.context t).calls := rfl
    rw [hcalls, execute_state, after_append, ← ih]

/-! ## The calls of a log -/

/-- What the node of an entry asked in a context. -/
def callsOfEntry (e : Engine σ) (c : Context) (a : LogEntry) : List Call :=
  match e.definition.node? a.nodeId with
  | some n => e.asks n c
  | none => []

/-- What the nodes of a log asked after some earlier entries: each one in the context that all the
entries before its own tell. -/
def callsOf (e : Engine σ) (input : Value) (traceId : String) (earlier : List LogEntry) :
    List LogEntry → List Call
  | [] => []
  | a :: rest => e.callsOfEntry (e.definition.told input traceId earlier) a ++
      e.callsOf input traceId (earlier ++ [a]) rest

/-- What is saved of a run at its end. -/
def savesOf (e : Engine σ) (r : Run) : List Call :=
  if e.collaborators.memory.isSome then [.save r.context.content (e.metadata r)] else []

/-- What is saved of a run on an inbound record that ends with a status. -/
def finalSave (e : Engine σ) (input : Value) (traceId : String) (status : RunStatus) : List Call :=
  if e.collaborators.memory.isSome then
    [.save (Context.contentOf input) (.ofMembers [("trace_id", .string traceId),
      ("workflow", .string e.definition.name), ("status", .string status.name)])]
  else []

theorem callsOf_concat (earlier log : List LogEntry) (a : LogEntry) :
    e.callsOf input traceId earlier (log ++ [a]) = e.callsOf input traceId earlier log ++
      e.callsOfEntry (e.definition.told input traceId (earlier ++ log)) a := by
  induction log generalizing earlier with
  | nil => simp [callsOf]
  | cons b rest ih =>
    rw [List.cons_append, callsOf, callsOf, ih, List.append_assoc, List.append_assoc,
      List.singleton_append]

/-- A run on its way has asked what its log tells. -/
theorem Reaches.calls_eq (hd : e.definition.Valid registered)
    (h : e.Reaches (.start input traceId) s r t) :
    r.calls = e.callsOf input traceId [] r.context.logs := by
  induction h with
  | start => rfl
  | @visit r t p n earlier due allowed node ih =>
    have hnode := hd.node?_eq (List.mem_of_getElem? node)
    have hasks : e.asks n r.context =
        e.asks n (e.definition.told input traceId r.context.logs) :=
      e.asks_congr n (earlier.lookup_eq_told hd) earlier.origin.2.2 rfl
    rw [absorb_logs, callsOf_concat, List.nil_append, ← ih]
    unfold callsOfEntry entryOf
    rw [hnode]
    dsimp only
    rw [← hasks, ← e.execute_calls n r.context t]
    rfl

/-- The end of a run adds one save, if there is a memory. -/
theorem finish_calls (e : Engine σ) (r : Run) (s : σ) :
    (e.finish r s).1.calls = r.calls ++ e.savesOf r := by
  unfold finish save savesOf
  cases e.collaborators.memory with
  | none => simp [Run.tell]
  | some memory => rfl

/-- The end of a run leaves the collaborators in the state after its save. -/
theorem finish_state (e : Engine σ) (r : Run) (s : σ) :
    (e.finish r s).2 = e.after (e.savesOf r) s := by
  unfold finish save savesOf after
  cases hmemory : e.collaborators.memory with
  | none => rfl
  | some memory =>
    simp only [Option.isSome_some, if_true, List.foldl_cons, List.foldl_nil, answer, hmemory]

/-! ## The calls of a run -/

/-- Each node that a run on its way has executed was due at an earlier point of the run. -/
theorem Reaches.exists_visit {c : Context} {k : Nat} (h : e.Reaches c s r t) (hk : k < r.steps) :
    ∃ r' t' p n, e.Reaches c s r' t' ∧ r'.steps = k ∧ r'.phase = .running p ∧
      e.definition.nodes[p]? = some n ∧
      (e.absorb r' p n (e.execute n r'.context t')).Precedes r := by
  induction h with
  | start => exact absurd hk (Nat.not_lt_zero k)
  | @visit r t p n earlier due allowed node ih =>
    rcases Nat.lt_or_ge k r.steps with hlt | hge
    · obtain ⟨r', t', p', n', hr', hsteps, hp', hn', hprecedes⟩ := ih hlt
      exact ⟨r', t', p', n', hr', hsteps, hp', hn', hprecedes.trans (e.precedes_absorb r p n _)⟩
    · have hsteps : r.steps = k := Nat.le_antisymm hge (Nat.le_of_lt_succ hk)
      exact ⟨r, t, p, n, earlier, hsteps, due, node, .refl _⟩

/-- The entry of a number goes back to the point after that many steps. The entries before it are
the log of that point, and its node is the one that was due there. -/
theorem Reaches.entry_cases {k : Nat} {a : LogEntry} (h : e.Reaches (.start input traceId) s r t)
    (ha : r.context.logs[k]? = some a) :
    (e.point input traceId s k).1.context.logs = r.context.logs.take k ∧
      ∃ p n, (e.point input traceId s k).1.phase = .running p ∧
        e.definition.nodes[p]? = some n ∧ n.id = a.nodeId := by
  have hk : k < r.steps := by
    rw [h.steps_eq rfl]
    exact (List.getElem?_eq_some_iff.mp ha).1
  obtain ⟨r', t', p, n, hr', rfl, hp, hn, hprecedes⟩ := h.exists_visit hk
  have hlogs := hprecedes.logs
  rw [absorb_logs] at hlogs
  have hlength : r'.context.logs.length = r'.steps := (hr'.steps_eq rfl).symm
  rw [hr'.point_steps]
  refine ⟨?_, p, n, hp, hn, ?_⟩
  · rw [← hlength]
    exact List.prefix_iff_eq_take.mp ((List.prefix_append _ _).trans hlogs)
  · obtain ⟨rest, hrest⟩ := hlogs
    rw [← hrest, ← hlength] at ha
    simp only [List.append_assoc, List.getElem?_append_right (Nat.le_refl _), Nat.sub_self,
      List.singleton_append, List.getElem?_cons_zero, Option.some.injEq] at ha
    rw [← ha]
    rfl

/-- What a run asks of its collaborators is what its log tells, and one save at its end. Nothing else
reaches them: the run leaves them in the state to which just these calls take them. Each entry
stands for the calls of its node in the context that the entries before it tell, which no path can
tell from the context that the node found; and when that node is due, the collaborators have been
asked what those entries tell, and no more. -/
theorem calls_told_by_log (e : Engine σ) {registered : String → Bool} {warnings : List Warning}
    (h : e.definition.check registered = .ok warnings) (input : Value) (traceId : String) (s : σ) :
    (e.run input traceId s).1.calls =
      e.callsOf input traceId [] (e.run input traceId s).1.context.logs ++
        e.finalSave input traceId (e.run input traceId s).1.status ∧
    (e.run input traceId s).2 =
      e.after (e.callsOf input traceId [] (e.run input traceId s).1.context.logs ++
        e.finalSave input traceId (e.run input traceId s).1.status) s ∧
    ∀ k a, (e.run input traceId s).1.context.logs[k]? = some a →
      (∃ p n, (e.point input traceId s k).1.phase = .running p ∧
        e.definition.nodes[p]? = some n ∧ e.definition.node? a.nodeId = some n) ∧
      (e.point input traceId s k).2 =
        e.after (e.callsOf input traceId [] ((e.run input traceId s).1.context.logs.take k)) s ∧
      ∀ path, (e.point input traceId s k).1.context.lookup path =
        (e.definition.told input traceId
          ((e.run input traceId s).1.context.logs.take k)).lookup path := by
  have hd := (Definition.check_eq_ok_iff.mp h).1
  obtain ⟨r, t, phase, hr, hrun⟩ := e.runFrom_eq_finish (.start input traceId) s
  have hsaves : e.savesOf { r with phase := phase } =
      e.finalSave input traceId (e.run input traceId s).1.status := by
    obtain ⟨-, hcontent, htrace⟩ := hr.origin
    unfold run savesOf finalSave metadata
    rw [hrun, hcontent, htrace, Run.status_congr (e.finish_phase _ t)]
    rfl
  have hlogs : (e.run input traceId s).1.context.logs = r.context.logs := by
    unfold run
    rw [hrun, finish_context]
  rw [hlogs, ← hsaves, ← hr.calls_eq hd]
  refine ⟨?_, ?_, fun k a ha => ?_⟩
  · unfold run
    rw [hrun, finish_calls]
  · unfold run
    rw [hrun, finish_state, after_append, ← hr.state_eq]
  · obtain ⟨hpoint, p, n, hp, hn, hid⟩ := hr.entry_cases ha
    have hreaches := reaches_point hp
    rw [← hpoint, ← hreaches.calls_eq hd]
    refine ⟨⟨p, n, hp, hn, ?_⟩, hreaches.state_eq, fun path => hreaches.lookup_eq_told hd path⟩
    rw [← hid]
    exact hd.node?_eq (List.mem_of_getElem? hn)

/-- A desk that looks up earlier content once, then answers and pages in turn, each answer with the
one before it in its prompt. Whoever is asked there writes down what for. -/
def desk : Engine (List Call) where
  definition := ⟨"desk", [⟨"seen", none, false, .retrieve "{{content}}"⟩,
    ⟨"reply", none, false, .generate "{{seen}} {{reply}}"⟩,
    ⟨"page", none, false, .action "page" (.string "{{reply}}")⟩,
    ⟨"again", none, false, .route [⟨.tree .always, "reply"⟩]⟩]⟩
  collaborators :=
    { generative := some ⟨"model", fun _ mode prompt asked =>
        (.settled (.ok (.text "yes")) 0, asked ++ [.complete mode prompt])⟩
      memory := some ⟨fun query asked =>
          (.settled (.ok [⟨"old", 1, .null⟩]) 0, asked ++ [.retrieve query]),
        fun content metadata asked => (.never, asked ++ [.save content metadata])⟩
      actions := some fun request asked => asked ++ [.submit request] }
  transforms := []
  replies := .standard
  maxSteps := 5
  timeout := 0
  now := { Clock.standing ⟨0⟩ with present := fun _ k => ⟨k⟩ }

/-- The second prompt holds the first answer, and the save tells that the limit was reached. What is
written down at the desk is what the log tells. -/
theorem desk_calls_told_by_log :
    desk.definition.check desk.transforms.contains = .ok [.backward "again" "reply"] ∧
    (desk.run (.object [("text", .string "Hi")]) "trace" []).1.calls =
      desk.callsOf (.object [("text", .string "Hi")]) "trace" []
        (desk.run (.object [("text", .string "Hi")]) "trace" []).1.context.logs ++
      desk.finalSave (.object [("text", .string "Hi")]) "trace" .aborted ∧
    (desk.run (.object [("text", .string "Hi")]) "trace" []).2 =
      desk.after (desk.callsOf (.object [("text", .string "Hi")]) "trace" []
        (desk.run (.object [("text", .string "Hi")]) "trace" []).1.context.logs ++
      desk.finalSave (.object [("text", .string "Hi")]) "trace" .aborted) [] ∧
    (desk.run (.object [("text", .string "Hi")]) "trace" []).2 =
      [.retrieve "Hi", .complete .text "old ", .submit ⟨"page", .string "yes", "trace", ⟨2⟩⟩,
        .complete .text "old yes",
        .save "Hi" (.ofMembers [("trace_id", .string "trace"), ("workflow", .string "desk"),
          ("status", .string "aborted")])] := by
  have hcheck : desk.definition.check desk.transforms.contains =
      .ok [.backward "again" "reply"] := rfl
  obtain ⟨hcalls, hstate, -⟩ :=
    calls_told_by_log desk hcheck (.object [("text", .string "Hi")]) "trace" []
  exact ⟨hcheck, hcalls, hstate, rfl⟩

end Engine

end TriageFlow
