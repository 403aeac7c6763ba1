import Mathlib.Data.List.Forall2
import Mathlib.Data.List.Induction
import TriageFlow.Proofs.Abort
import TriageFlow.Proofs.History

/-!
The reply of a run told from its log. The reply is computed from the results, of which there is one
for each node and which move to the end when they are written again. What it should be is a matter
of what was executed: the text of the last generation, else whether there was an action
(`Dictates`). Leaving out all but the last stores of each node keeps the last entry of every kind of
node (`getLast?_filter_lastStores`), so both give the same reply, after any number of loops.
-/

namespace TriageFlow

open Json (Value)

namespace Node

/-- Whether a node asks for a text. -/
def isGenerator (n : Node) : Bool :=
  match n.kind with
  | .generate _ => true
  | _ => false

/-- Whether a node hands off a side effect. -/
def isActor (n : Node) : Bool :=
  match n.kind with
  | .action _ _ => true
  | _ => false

/-- The outputs that a node of each kind can give. -/
inductive Gives (n : Node) : Output → Prop
  | transform {name : String} {value : Value} (kind : n.kind = .transform name) :
      Gives n (.transform value)
  | recalled {query text : String} (kind : n.kind = .retrieve query) : Gives n (.recalled text)
  | analysis {prompt : String} {analysis : Analysis} (kind : n.kind = .analyze prompt) :
      Gives n (.analysis analysis)
  | generation {prompt text : String} (kind : n.kind = .generate prompt) :
      Gives n (.generation text)
  | action {name : String} {payload : Value} {receipt : Receipt}
      (kind : n.kind = .action name payload) : Gives n (.action receipt)

variable {n : Node} {o : Output}

theorem not_isRouter_of_isGenerator (n : Node) (h : n.isGenerator = true) : n.isRouter = false := by
  unfold isGenerator at h
  unfold isRouter
  split at h
  · next hkind => rw [hkind]
  · cases h

theorem not_isRouter_of_isActor (n : Node) (h : n.isActor = true) : n.isRouter = false := by
  unfold isActor at h
  unfold isRouter
  split at h
  · next hkind => rw [hkind]
  · cases h

/-- Only generation nodes give generated texts. -/
theorem Gives.generated (h : n.Gives o) : (Run.generated? o).isSome = n.isGenerator := by
  cases h with
  | _ kind => rw [isGenerator, kind]; rfl

/-- Only action nodes give receipts. -/
theorem Gives.acted (h : n.Gives o) : Run.isAction o = n.isActor := by
  cases h with
  | _ kind => rw [isActor, kind]; rfl

end Node

namespace Definition

/-- An entry of a node of some kind. -/
def IsOf (d : Definition) (kind : Node → Bool) (a : LogEntry) : Prop :=
  ∃ n ∈ d.nodes, n.id = a.nodeId ∧ kind n = true

instance (d : Definition) (kind : Node → Bool) : DecidablePred (d.IsOf kind) :=
  fun _ => inferInstanceAs (Decidable (∃ _ ∈ _, _))

/-- The reply that the status and the log of a run call for. -/
inductive Dictates (d : Definition) (replies : Replies) (log : List LogEntry) :
    RunStatus → String → Prop
  /-- A run that was aborted is answered with the text for failures. -/
  | failure : Dictates d replies log .aborted replies.failure
  /-- The last generation that was executed is the reply, whatever else was. -/
  | generation {a : LogEntry} {text : String}
      (last : (log.filter fun b => d.IsOf Node.isGenerator b).getLast? = some a)
      (output : a.output = .string text) : Dictates d replies log .completed text
  /-- Without a generation, an action is acknowledged. -/
  | escalation (silent : ∀ a ∈ log, ¬d.IsOf Node.isGenerator a)
      (acted : ∃ a ∈ log, d.IsOf Node.isActor a) :
      Dictates d replies log .completed replies.escalation
  /-- Without either, only the receipt is acknowledged. -/
  | receipt (silent : ∀ a ∈ log, ¬d.IsOf Node.isGenerator a)
      (idle : ∀ a ∈ log, ¬d.IsOf Node.isActor a) :
      Dictates d replies log .completed replies.received

section Logs

variable {d : Definition} {registered : String → Bool} {kind : Node → Bool}
  {log : List LogEntry} {a b : LogEntry}

/-- The entries of one node are all of a kind, or none is. -/
theorem IsOf.congr (h : a.nodeId = b.nodeId) : d.IsOf kind a ↔ d.IsOf kind b := by
  unfold IsOf
  rw [h]

/-- In a valid definition, the kind of an entry is that of its node. -/
theorem Valid.isOf_iff (hd : d.Valid registered) {n : Node} (hn : n ∈ d.nodes)
    (hid : n.id = a.nodeId) : d.IsOf kind a ↔ kind n = true := by
  refine ⟨?_, fun hkind => ⟨n, hn, hid, hkind⟩⟩
  rintro ⟨m, hm, hmid, hkind⟩
  rwa [hd.node_inj hn hm (hid.trans hmid.symm)]

/-- An execution of a node that is no router stores what it gave. -/
theorem stores_of_isOf (hplain : ∀ n : Node, kind n = true → n.isRouter = false)
    (hstatus : a.status = .success) (h : d.IsOf kind a) : d.Stores a := by
  obtain ⟨n, hn, hid, hkind⟩ := h
  exact ⟨hstatus, n, hn, hid, hplain n hkind⟩

/-- Of the entries of a kind that stores whatever is executed, the last one is the last that
stores. -/
theorem getLast?_filter_lastStores (hstores : ∀ a ∈ log, d.IsOf kind a → d.Stores a) :
    ((d.lastStores log).filter fun a => d.IsOf kind a).getLast? =
      (log.filter fun a => d.IsOf kind a).getLast? := by
  induction log using List.reverseRecOn with
  | nil => rfl
  | append_singleton log a ih =>
    obtain ⟨hlog, ha⟩ := List.forall_mem_append.mp hstores
    have ih := ih hlog
    by_cases hkind : d.IsOf kind a
    · have hself : [a].filter (fun b => d.IsOf kind b) = [a] :=
        List.filter_cons_of_pos (by simpa using hkind)
      rw [lastStores_append_of_stores (ha a (List.mem_singleton_self a) hkind),
        List.filter_append, List.filter_append, hself, List.getLast?_concat, List.getLast?_concat]
    · have hself : [a].filter (fun b => d.IsOf kind b) = [] :=
        List.filter_cons_of_neg (by simpa using hkind)
      -- a store of `a` takes away entries of its own node only, which are not of the kind either
      have hlast : (d.lastStores (log ++ [a])).filter (fun b => d.IsOf kind b) =
          (d.lastStores log).filter fun b => d.IsOf kind b := by
        by_cases hs : d.Stores a
        · rw [lastStores_append_of_stores hs, List.filter_append, List.filter_filter, hself,
            List.append_nil]
          refine List.filter_congr fun b _ => ?_
          by_cases hb : d.IsOf kind b
          · have hne : b.nodeId ≠ a.nodeId := fun hid => hkind ((IsOf.congr hid).mp hb)
            simp [hne]
          · simp [hb]
        · rw [lastStores_append_of_not hs]
      rw [hlast, ih, List.filter_append, hself, List.append_nil]

/-- A node of a kind that stores whatever is executed stands in the log if it stands among the last
stores. -/
theorem exists_lastStores_iff (hstores : ∀ a ∈ log, d.IsOf kind a → d.Stores a) :
    (∃ a ∈ d.lastStores log, d.IsOf kind a) ↔ ∃ a ∈ log, d.IsOf kind a := by
  constructor
  · rintro ⟨a, ha, hkind⟩
    exact ⟨a, (mem_of_mem_lastStores ha).1, hkind⟩
  · rintro ⟨a, ha, hkind⟩
    obtain ⟨b, hb, hid⟩ := exists_lastStores ha (hstores a ha hkind)
    exact ⟨b, hb, (IsOf.congr hid).mpr hkind⟩

/-- An entry that holds an output of its node. -/
structure Bears (d : Definition) (o : Output) (a : LogEntry) : Prop where
  output : a.output = o.toValue
  generated : (Run.generated? o).isSome = true ↔ d.IsOf Node.isGenerator a
  acted : Run.isAction o = true ↔ d.IsOf Node.isActor a

end Logs

/-- The texts that were generated are the outputs of the generations. -/
theorem map_generated {d : Definition} {outputs : List Output} {entries : List LogEntry}
    (h : List.Forall₂ d.Bears outputs entries) :
    (outputs.filterMap Run.generated?).map Value.string =
      (entries.filter fun a => d.IsOf Node.isGenerator a).map LogEntry.output := by
  induction h with
  | nil => rfl
  | @cons o a outputs entries hoa _ ih =>
    cases hgenerated : Run.generated? o with
    | none =>
      have hother : ¬d.IsOf Node.isGenerator a := by
        rw [← hoa.generated, hgenerated]
        nofun
      rw [List.filterMap_cons_none hgenerated, List.filter_cons_of_neg (by simpa using hother), ih]
    | some text =>
      have hkind : d.IsOf Node.isGenerator a := hoa.generated.mp (by rw [hgenerated]; rfl)
      have houtput : a.output = .string text := by
        rw [hoa.output]
        cases o <;> cases hgenerated
        rfl
      rw [List.filterMap_cons_some hgenerated, List.filter_cons_of_pos (by simpa using hkind),
        List.map_cons, List.map_cons, ih, houtput]

theorem any_isAction_iff {d : Definition} {outputs : List Output} {entries : List LogEntry}
    (h : List.Forall₂ d.Bears outputs entries) :
    outputs.any Run.isAction = true ↔ ∃ a ∈ entries, d.IsOf Node.isActor a := by
  induction h with
  | nil => simp
  | @cons o a outputs entries hoa _ ih =>
    simp only [List.any_cons, Bool.or_eq_true, ih, hoa.acted, List.mem_cons, exists_eq_or_imp]

end Definition

/-! ## The outputs of nodes -/

namespace Engine

variable {σ : Type} {e : Engine σ} {registered : String → Bool} {c : Context} {s t : σ} {r : Run}

/-- What the execution of a node gives is of the kind of the node. -/
theorem execute_gives {n : Node} {o : Output} (h : (e.execute n c s).outcome = .ok (.output o)) :
    n.Gives o := by
  unfold execute at h
  split at h
  · next name hkind =>
    cases happly : e.transforms.apply n.id name c with
    | ok value =>
      rw [happly] at h
      cases h
      exact .transform hkind
    | error fault =>
      rw [happly] at h
      cases h
  · next query hkind =>
    obtain ⟨text, hout⟩ := e.retrieve_outcome n.id query c s
    cases hout.symm.trans h
    exact .recalled hkind
  · next prompt hkind =>
    obtain ⟨analysis, hout⟩ := e.analyze_outcome n.id prompt c s
    cases hout.symm.trans h
    exact .analysis hkind
  · next prompt hkind =>
    obtain ⟨text, hout⟩ := e.generate_outcome n.id prompt c s
    cases hout.symm.trans h
    exact .generation hkind
  · cases h
  · next action payload hkind =>
    cases (e.act_outcome action payload c s).symm.trans h
    exact .action hkind

/-- Every result was given by the node whose id it is stored under. -/
theorem Reaches.gives (hfresh : c.results = []) (h : e.Reaches c s r t) :
    ∀ w ∈ r.context.results, ∃ n ∈ e.definition.nodes, n.id = w.1 ∧ n.Gives w.2 := by
  induction h with
  | start =>
    rw [Run.start_context, hfresh]
    nofun
  | @visit r t p n earlier due allowed node ih =>
    intro w hw
    rw [absorb_context] at hw
    by_cases hout : ∃ o, (e.execute n r.context t).outcome = .ok (.output o)
    · obtain ⟨o, ho⟩ := hout
      rw [ho] at hw
      rcases List.mem_append.mp hw with hw | hw
      · exact ih w (List.mem_filter.mp hw).1
      · obtain rfl := List.mem_singleton.mp hw
        exact ⟨n, List.mem_of_getElem? node, rfl, execute_gives ho⟩
    · rw [Context.keep_of_not_output fun o ho => hout ⟨o, ho⟩] at hw
      exact ih w hw

/-- The results are, in order, what the last stores of the log hold. -/
theorem Reaches.bears (hd : e.definition.Valid registered)
    (hstart : c.results = [] ∧ c.logs = []) (h : e.Reaches c s r t) :
    List.Forall₂ e.definition.Bears (r.context.results.map Prod.snd)
      (e.definition.lastStores r.context.logs) := by
  have hsame : List.Forall₂ (· = ·) (r.context.results.map fun w => (w.1, w.2.toValue))
      ((e.definition.lastStores r.context.logs).map LogEntry.written) := by
    rw [List.forall₂_eq_eq_eq]
    exact h.results_eq hd hstart
  rw [List.forall₂_map_left_iff, List.forall₂_map_right_iff] at hsame
  rw [List.forall₂_map_left_iff]
  refine List.Forall₂.imp (fun w a hwa => ?_)
    ((List.forall₂_and_left _ _).mpr ⟨h.gives hstart.1, hsame⟩)
  obtain ⟨⟨n, hn, hid, hgives⟩, hwritten⟩ := hwa
  obtain ⟨hnode, houtput⟩ := Prod.mk.inj hwritten
  have hentry : n.id = a.nodeId := hid.trans hnode
  exact ⟨houtput.symm, by rw [hd.isOf_iff hn hentry, hgives.generated],
    by rw [hd.isOf_iff hn hentry, hgives.acted]⟩

end Engine

/-! ## The reply -/

namespace Definition

variable {d : Definition} {replies : Replies} {log : List LogEntry}

/-- A log calls for one reply. -/
theorem Dictates.unique {status : RunStatus} {text text' : String}
    (h : d.Dictates replies log status text) (h' : d.Dictates replies log status text') :
    text = text' := by
  have spoken {a : LogEntry}
      (hlast : (log.filter fun b => d.IsOf Node.isGenerator b).getLast? = some a) :
      ¬∀ a ∈ log, ¬d.IsOf Node.isGenerator a := by
    obtain ⟨ha, hkind⟩ := List.mem_filter.mp (List.mem_of_getLast? hlast)
    exact fun hsilent => hsilent a ha (of_decide_eq_true hkind)
  cases h with
  | failure => cases h'; rfl
  | generation hlast houtput =>
    cases h' with
    | generation hlast' houtput' =>
      cases hlast.symm.trans hlast'
      exact Value.string.inj (houtput.symm.trans houtput')
    | escalation hsilent _ => exact absurd hsilent (spoken hlast)
    | receipt hsilent _ => exact absurd hsilent (spoken hlast)
  | escalation hsilent hacted =>
    cases h' with
    | generation hlast _ => exact absurd hsilent (spoken hlast)
    | escalation _ _ => rfl
    | receipt _ hidle =>
      obtain ⟨a, ha, hkind⟩ := hacted
      exact absurd hkind (hidle a ha)
  | receipt hsilent hidle =>
    cases h' with
    | generation hlast _ => exact absurd hsilent (spoken hlast)
    | escalation _ hacted =>
      obtain ⟨a, ha, hkind⟩ := hacted
      exact absurd hkind (hidle a ha)
    | receipt _ _ => rfl

/-- If the results bear the last stores of a log without failures, they give the reply that the log
calls for. -/
theorem dictates_reply {r : Run} (hstatus : r.status = .completed)
    (hbears : List.Forall₂ d.Bears (r.context.results.map Prod.snd)
      (d.lastStores r.context.logs))
    (hsuccess : ∀ a ∈ r.context.logs, a.status = .success) :
    d.Dictates replies r.context.logs .completed (r.reply replies) := by
  have hlast := getLast?_filter_lastStores fun a ha =>
    stores_of_isOf (d := d) Node.not_isRouter_of_isGenerator (hsuccess a ha)
  have hacted := exists_lastStores_iff fun a ha =>
    stores_of_isOf (d := d) Node.not_isRouter_of_isActor (hsuccess a ha)
  -- the last generated text, told from the results and from the log
  have htexts := congrArg List.getLast? (map_generated hbears)
  rw [List.getLast?_map, List.getLast?_map, hlast, List.getLast?_filterMap] at htexts
  unfold Run.reply
  rw [hstatus]
  dsimp only
  split
  · next text hfound =>
    rw [hfound] at htexts
    obtain ⟨a, ha, houtput⟩ := Option.map_eq_some_iff.mp htexts.symm
    exact .generation ha houtput
  · next hnone =>
    rw [hnone, eq_comm, Option.map_none, Option.map_eq_none_iff, List.getLast?_eq_none_iff,
      List.filter_eq_nil_iff] at htexts
    have hsilent : ∀ a ∈ r.context.logs, ¬d.IsOf Node.isGenerator a := fun a ha => by
      simpa using htexts a ha
    rw [← any_isAction_iff hbears] at hacted
    split
    · next hany => exact .escalation hsilent (hacted.mp hany)
    · next hany => exact .receipt hsilent fun a ha hkind => hany (hacted.mpr ⟨a, ha, hkind⟩)

end Definition

namespace Engine

variable {σ : Type}

/-- The reply of a run of a definition that passes its check is the one reply that the log and the
status of the run call for. -/
theorem reply_dictated_by_log (e : Engine σ) {registered : String → Bool}
    {warnings : List Warning} (h : e.definition.check registered = .ok warnings) (input : Value)
    (traceId : String) (s : σ) (replies : Replies) (text : String) :
    e.definition.Dictates replies (e.run input traceId s).1.context.logs
      (e.run input traceId s).1.status text ↔ text = (e.run input traceId s).1.reply replies := by
  have hd := (Definition.check_eq_ok_iff.mp h).1
  have hreply : e.definition.Dictates replies (e.run input traceId s).1.context.logs
      (e.run input traceId s).1.status ((e.run input traceId s).1.reply replies) := by
    cases hstatus : (e.run input traceId s).1.status with
    | aborted =>
      rw [Run.reply_of_aborted hstatus]
      exact .failure
    | completed =>
      obtain ⟨r, t, hr, hcontext, -, ⟨-, hphase⟩ | ⟨p, -, -, hphase⟩⟩ :=
        e.runFrom_cases (.start input traceId) s
      · have hgoing : ∀ p cause, r.phase ≠ .aborted p cause := by
          rw [← hphase]
          exact Run.status_eq_completed_iff.mp hstatus
        refine Definition.dictates_reply hstatus ?_ ?_
        · rw [run, hcontext]
          exact hr.bears hd ⟨rfl, rfl⟩
        · rw [run, hcontext]
          exact hr.all_success rfl hgoing
      · exact absurd hphase (Run.status_eq_completed_iff.mp hstatus p _)
  exact ⟨fun htext => htext.unique hreply, fun htext => htext ▸ hreply⟩

/-- A gateway that counts its answers and gives their number. -/
def countingGateway : Generative Nat where
  name := "counter"
  complete _ _ _ s := (.settled (.ok (.text ("reply " ++ Text.ofNat s))) 0, s + 1)

/-- A workflow that writes a reply and raises an alarm, twice, and then has recalled nothing. -/
def twiceOver : Engine Nat where
  definition := ⟨"twice over",
    [⟨"reply", none, false, .generate "Reply."⟩, ⟨"alarm", none, false, .action "ring" .null⟩,
      ⟨"again", none, false, .route [⟨.tree (.not (.field ⟨"logs", ["3"]⟩)), "reply"⟩]⟩,
      ⟨"recall", none, false, .retrieve "earlier"⟩]⟩
  collaborators := { Collaborators.none with generative := some countingGateway }
  transforms := []
  replies := .standard
  maxSteps := 10
  timeout := 0
  now := .standing ⟨0⟩

/-- The text of the second generation is the reply, though an action and a recall came after it. -/
theorem twiceOver_gives_second_reply :
    twiceOver.definition.check twiceOver.transforms.contains = .ok [.backward "again" "reply"] ∧
    (twiceOver.run .null "trace" 1).1.context.logs.map LogEntry.nodeId =
      ["reply", "alarm", "again", "reply", "alarm", "again", "recall"] ∧
    twiceOver.definition.Dictates .standard (twiceOver.run .null "trace" 1).1.context.logs
      (twiceOver.run .null "trace" 1).1.status "reply 2" := by
  have hcheck : twiceOver.definition.check twiceOver.transforms.contains =
      .ok [.backward "again" "reply"] := rfl
  have hreply : "reply 2" = (twiceOver.run .null "trace" 1).1.reply .standard := by decide +kernel
  exact ⟨hcheck, rfl, (reply_dictated_by_log twiceOver hcheck .null "trace" 1 .standard _).mpr
    hreply⟩

end Engine

end TriageFlow
