import TriageFlow.Proofs.Reach

/-!
The results and the log of a context tell one history. A log says by itself what should be stored:
for each node that is no router the output of its last success (`lastStores`). `results_eq` shows
that this is what is stored, in the same order, at every point of every run of a valid definition.
A failure or a jump adds an entry that stores nothing, so a node that fails later keeps its result.
-/

namespace TriageFlow

open Json (Value)

/-- The id of the node and its output. -/
def LogEntry.written (a : LogEntry) : String × Value := (a.nodeId, a.output)

/-- The results as values, the oldest write first. -/
def Context.stored (c : Context) : List (String × Value) :=
  c.results.map fun r => (r.1, r.2.toValue)

namespace Definition

/-- A success of a node that is no router, whose output is a result. -/
def Stores (d : Definition) (a : LogEntry) : Prop :=
  a.status = .success ∧ ∃ n ∈ d.nodes, n.id = a.nodeId ∧ n.isRouter = false

instance (d : Definition) : DecidablePred d.Stores :=
  fun _ => inferInstanceAs (Decidable (_ ∧ _))

/-- The entries that store a result after which the same node stores no other, in log order. -/
def lastStores (d : Definition) : List LogEntry → List LogEntry
  | [] => []
  | a :: rest =>
    if d.Stores a ∧ ∀ b ∈ rest, d.Stores b → b.nodeId ≠ a.nodeId then a :: d.lastStores rest
    else d.lastStores rest

/-! ## The last stores of a log -/

section LastStores

variable {d : Definition} {log rest : List LogEntry} {a : LogEntry}

theorem lastStores_cons_of_last
    (h : d.Stores a ∧ ∀ b ∈ rest, d.Stores b → b.nodeId ≠ a.nodeId) :
    d.lastStores (a :: rest) = a :: d.lastStores rest := if_pos h

theorem lastStores_cons_of_not
    (h : ¬(d.Stores a ∧ ∀ b ∈ rest, d.Stores b → b.nodeId ≠ a.nodeId)) :
    d.lastStores (a :: rest) = d.lastStores rest := if_neg h

theorem mem_of_mem_lastStores (h : a ∈ d.lastStores log) : a ∈ log ∧ d.Stores a := by
  induction log with
  | nil => simp [lastStores] at h
  | cons b rest ih =>
    unfold lastStores at h
    split at h
    · next hlast =>
      rcases List.mem_cons.mp h with rfl | h
      · exact ⟨List.mem_cons_self, hlast.1⟩
      · exact ⟨List.mem_cons_of_mem _ (ih h).1, (ih h).2⟩
    · exact ⟨List.mem_cons_of_mem _ (ih h).1, (ih h).2⟩

/-- After a last store, its node stores nothing more. -/
theorem split_of_mem_lastStores (h : a ∈ d.lastStores log) :
    ∃ older newer, log = older ++ a :: newer ∧ ∀ b ∈ newer, d.Stores b → b.nodeId ≠ a.nodeId := by
  induction log with
  | nil => simp [lastStores] at h
  | cons b rest ih =>
    have later (h' : a ∈ d.lastStores rest) : ∃ older newer, b :: rest = older ++ a :: newer ∧
        ∀ x ∈ newer, d.Stores x → x.nodeId ≠ a.nodeId := by
      obtain ⟨older, newer, hrest, hnewer⟩ := ih h'
      exact ⟨b :: older, newer, by rw [hrest, List.cons_append], hnewer⟩
    unfold lastStores at h
    split at h
    · next hlast =>
      rcases List.mem_cons.mp h with rfl | h
      · exact ⟨[], rest, rfl, hlast.2⟩
      · exact later h
    · exact later h

/-- A node that stores something has a last store. -/
theorem exists_lastStores (ha : a ∈ log) (hs : d.Stores a) :
    ∃ b ∈ d.lastStores log, b.nodeId = a.nodeId := by
  induction log generalizing a with
  | nil => simp at ha
  | cons b rest ih =>
    by_cases hlast : d.Stores b ∧ ∀ x ∈ rest, d.Stores x → x.nodeId ≠ b.nodeId
    · rw [lastStores_cons_of_last hlast]
      rcases List.mem_cons.mp ha with rfl | ha
      · exact ⟨a, List.mem_cons_self, rfl⟩
      · obtain ⟨x, hx, hid⟩ := ih ha hs
        exact ⟨x, List.mem_cons_of_mem _ hx, hid⟩
    · rw [lastStores_cons_of_not hlast]
      rcases List.mem_cons.mp ha with rfl | ha
      · -- `a` is no last store, so its node stores again in the rest.
        have hagain : ∃ x ∈ rest, d.Stores x ∧ x.nodeId = a.nodeId := by
          refine Classical.byContradiction fun hnone => ?_
          exact hlast ⟨hs, fun x hx hxs hid => hnone ⟨x, hx, hxs, hid⟩⟩
        obtain ⟨x, hx, hxs, hid⟩ := hagain
        obtain ⟨y, hy, hyid⟩ := ih hx hxs
        exact ⟨y, hy, hyid.trans hid⟩
      · exact ih ha hs

theorem lastStores_nodup (d : Definition) (log : List LogEntry) :
    ((d.lastStores log).map LogEntry.nodeId).Nodup := by
  induction log with
  | nil => exact List.nodup_nil
  | cons b rest ih =>
    unfold lastStores
    split
    · next hlast =>
      rw [List.map_cons, List.nodup_cons]
      refine ⟨fun hmem => ?_, ih⟩
      obtain ⟨x, hx, hid⟩ := List.mem_map.mp hmem
      obtain ⟨hrest, hxs⟩ := mem_of_mem_lastStores hx
      exact hlast.2 x hrest hxs hid
    · exact ih

/-- An entry that stores nothing leaves the last stores as they are. -/
theorem lastStores_append_of_not (ha : ¬d.Stores a) :
    d.lastStores (log ++ [a]) = d.lastStores log := by
  induction log with
  | nil => exact lastStores_cons_of_not fun h => ha h.1
  | cons b rest ih =>
    have hlater : (∀ x ∈ rest ++ [a], d.Stores x → x.nodeId ≠ b.nodeId) ↔
        ∀ x ∈ rest, d.Stores x → x.nodeId ≠ b.nodeId := by
      rw [List.forall_mem_append, List.forall_mem_singleton]
      exact ⟨fun h => h.1, fun h => ⟨h, fun hs => absurd hs ha⟩⟩
    rw [List.cons_append]
    by_cases hlast : d.Stores b ∧ ∀ x ∈ rest, d.Stores x → x.nodeId ≠ b.nodeId
    · rw [lastStores_cons_of_last ⟨hlast.1, hlater.mpr hlast.2⟩, lastStores_cons_of_last hlast, ih]
    · rw [lastStores_cons_of_not fun h => hlast ⟨h.1, hlater.mp h.2⟩,
        lastStores_cons_of_not hlast, ih]

/-- An entry that stores takes the place of the earlier stores of its node. -/
theorem lastStores_append_of_stores (ha : d.Stores a) :
    d.lastStores (log ++ [a]) =
      (d.lastStores log).filter (fun b => b.nodeId ≠ a.nodeId) ++ [a] := by
  induction log with
  | nil => exact lastStores_cons_of_last ⟨ha, by simp⟩
  | cons b rest ih =>
    have hlater : (∀ x ∈ rest ++ [a], d.Stores x → x.nodeId ≠ b.nodeId) ↔
        (∀ x ∈ rest, d.Stores x → x.nodeId ≠ b.nodeId) ∧ a.nodeId ≠ b.nodeId := by
      rw [List.forall_mem_append, List.forall_mem_singleton]
      exact ⟨fun h => ⟨h.1, h.2 ha⟩, fun h => ⟨h.1, fun _ => h.2⟩⟩
    rw [List.cons_append]
    by_cases hlast : d.Stores b ∧ ∀ x ∈ rest, d.Stores x → x.nodeId ≠ b.nodeId
    · rw [lastStores_cons_of_last hlast]
      by_cases hid : b.nodeId = a.nodeId
      · rw [lastStores_cons_of_not fun h => (hlater.mp h.2).2 hid.symm, ih,
          List.filter_cons_of_neg (by simpa)]
      · rw [lastStores_cons_of_last ⟨hlast.1, hlater.mpr ⟨hlast.2, Ne.symm hid⟩⟩, ih,
          List.filter_cons_of_pos (by simpa), List.cons_append]
    · rw [lastStores_cons_of_not hlast,
        lastStores_cons_of_not fun h => hlast ⟨h.1, (hlater.mp h.2).1⟩, ih]

end LastStores

/-- The results of a context are what the log says should be stored, and no key of the whole
context is taken twice. -/
structure Agrees (d : Definition) (c : Context) : Prop where
  distinct : (c.results.map Prod.fst).Nodup
  unreserved : ∀ r ∈ c.results, r.1 ∉ Context.reservedKeys
  unrouted : ∀ n ∈ d.nodes, n.isRouter = true → c.result? n.id = none
  stored_iff : ∀ id, (c.result? id).isSome = true ↔ ∃ a ∈ c.logs, d.Stores a ∧ a.nodeId = id
  latest : ∀ id o, c.result? id = some o → ∃ older a newer, c.logs = older ++ a :: newer ∧
    d.Stores a ∧ a.nodeId = id ∧ a.output = o.toValue ∧
    ∀ b ∈ newer, d.Stores b → b.nodeId ≠ id
  ordered : c.stored = (d.lastStores c.logs).map LogEntry.written
  keys : ∃ fields, c.document = .object fields ∧ (fields.map Prod.fst).Nodup

end Definition

/-! ## The results of a context -/

namespace Context

theorem stored_record (c : Context) (id : String) (o : Output) :
    (c.record id o).stored = c.stored.filter (fun w => w.1 ≠ id) ++ [(id, o.toValue)] := by
  unfold stored record
  rw [List.map_append, List.filter_map]
  rfl

@[simp] theorem stored_log (c : Context) (a : LogEntry) : (c.log a).stored = c.stored := rfl

theorem keep_of_not_output {c : Context} {id : String} {x : Except Fault Outcome}
    (h : ∀ o, x ≠ .ok (.output o)) : c.keep id x = c := by
  unfold keep
  split
  · next o => exact absurd rfl (h o)
  · rfl

theorem map_fst_stored (c : Context) : c.stored.map Prod.fst = c.results.map Prod.fst := by
  unfold stored
  rw [List.map_map]
  rfl

theorem result?_record_of_ne {c : Context} {id key : String} {o : Output} (h : key ≠ id) :
    (c.record id o).result? key = c.result? key := by
  unfold result? record
  dsimp only
  induction c.results with
  | nil => rw [List.filter_nil, List.nil_append, List.lookup_cons, beq_false_of_ne h]
  | cons r rest ih =>
    by_cases hr : r.1 = id
    · rw [List.filter_cons_of_neg (by simpa using hr), ih, List.lookup_cons,
        beq_false_of_ne (hr ▸ h)]
    · rw [List.filter_cons_of_pos (by simpa using hr), List.cons_append, List.lookup_cons,
        List.lookup_cons, ih]

theorem mem_of_result? {c : Context} {id : String} {o : Output} (h : c.result? id = some o) :
    (id, o) ∈ c.results := by
  obtain ⟨older, newer, hsplit, -⟩ := List.lookup_eq_some_iff.mp h
  rw [hsplit]
  exact List.mem_append_right _ List.mem_cons_self

theorem result?_isSome_iff {c : Context} {id : String} :
    (c.result? id).isSome = true ↔ id ∈ c.results.map Prod.fst := by
  unfold result?
  rw [List.lookup_isSome_iff, List.mem_map]
  constructor
  · rintro ⟨r, hr, hid⟩
    exact ⟨r, hr, (by simpa using hid : id = r.1).symm⟩
  · rintro ⟨r, hr, hid⟩
    exact ⟨r, hr, by simpa using hid.symm⟩

end Context

namespace Engine

variable {σ : Type} {e : Engine σ} {registered : String → Bool} {c : Context} {s t : σ} {r : Run}

/-- An execution adds an entry that stores exactly if it gave an output. -/
theorem stores_entryOf_iff (hd : e.definition.Valid registered) {p : Nat} {n : Node}
    (hn : e.definition.nodes[p]? = some n) {x : Execution σ}
    (hx : e.definition.Fits n x.outcome) :
    e.definition.Stores (e.entryOf r n x) ↔ ∃ o, x.outcome = .ok (.output o) := by
  have hmem := List.mem_of_getElem? hn
  have router {rules : List RouteRule} (hkind : n.kind = .route rules) :
      ¬e.definition.Stores (e.entryOf r n x) := by
    rintro ⟨-, m, hm, hid, hplain⟩
    rw [hd.node_inj hm hmem hid, Node.isRouter_eq_true_iff.mpr ⟨rules, hkind⟩] at hplain
    cases hplain
  cases hout : x.outcome with
  | error fault =>
    refine ⟨fun h => ?_, fun ⟨o, ho⟩ => by cases ho⟩
    have hstatus := h.1
    simp only [entryOf, hout, outcomeStatus] at hstatus
    cases hstatus
  | ok outcome =>
    rw [hout] at hx
    cases hx with
    | jumped hkind _ _ => exact ⟨fun h => absurd h (router hkind), fun ⟨o, ho⟩ => by cases ho⟩
    | fellThrough hkind => exact ⟨fun h => absurd h (router hkind), fun ⟨o, ho⟩ => by cases ho⟩
    | gave o hplain =>
      refine ⟨fun _ => ⟨o, rfl⟩, fun _ => ⟨?_, n, hmem, rfl, hplain⟩⟩
      simp only [entryOf, hout, outcomeStatus]

/-- What is stored is what the log says should be, in the same order. -/
theorem Reaches.results_eq (hd : e.definition.Valid registered)
    (hstart : c.results = [] ∧ c.logs = []) (h : e.Reaches c s r t) :
    r.context.stored = (e.definition.lastStores r.context.logs).map LogEntry.written := by
  induction h with
  | start =>
    rw [Run.start_context, hstart.2, Context.stored, hstart.1]
    rfl
  | @visit r t p n earlier due allowed node ih =>
    have hfits := e.execute_fits n r.context t
    have hiff := stores_entryOf_iff (r := r) hd node hfits
    rw [absorb_logs, absorb_context, Context.stored_log]
    by_cases hout : ∃ o, (e.execute n r.context t).outcome = .ok (.output o)
    · rw [Definition.lastStores_append_of_stores (hiff.mpr hout)]
      obtain ⟨o, ho⟩ := hout
      have hwritten : (e.entryOf r n (e.execute n r.context t)).written = (n.id, o.toValue) := by
        simp only [LogEntry.written, entryOf, ho, outcomeValue]
      rw [List.map_append, List.map_singleton, hwritten, ho, Context.keep, Context.stored_record,
        ih, List.filter_map]
      rfl
    · rw [Definition.lastStores_append_of_not (fun h => hout (hiff.mp h)),
        Context.keep_of_not_output (fun o ho => hout ⟨o, ho⟩), ih]

end Engine

/-! ## The agreement of results and log -/

/-- A context whose results have distinct keys, none of them reserved, has no key twice. -/
theorem Context.document_keys_nodup {c : Context} (hdistinct : (c.results.map Prod.fst).Nodup)
    (hreserved : ∀ id ∈ c.results.map Prod.fst, id ∉ reservedKeys) :
    ∃ fields, c.document = .object fields ∧ (fields.map Prod.fst).Nodup := by
  refine ⟨_, rfl, ?_⟩
  have hids : (c.results.map fun r => (r.1, r.2.document)).map Prod.fst =
      c.results.map Prod.fst := by
    rw [List.map_map]
    rfl
  rw [List.map_append, List.map_append, hids]
  have hfront : ∀ key ∈ ["input", "content", "trace_id"], key ∉ c.results.map Prod.fst := by
    intro key hkey hmem
    refine hreserved key hmem ?_
    unfold reservedKeys
    exact List.mem_append_left ["logs"] hkey
  have hback : "logs" ∉ c.results.map Prod.fst := fun hmem => hreserved _ hmem (by decide)
  refine List.nodup_append.mpr ⟨List.nodup_append.mpr ⟨by simp, hdistinct, ?_⟩, by simp, ?_⟩
  · intro key hkey id hid heq
    exact hfront key hkey (heq ▸ hid)
  · intro id hid key hkey heq
    rw [List.map_singleton, List.mem_singleton] at hkey
    rw [heq, hkey] at hid
    rcases List.mem_append.mp hid with hid | hid
    · simp at hid
    · exact hback hid

namespace Definition

variable {d : Definition} {registered : String → Bool} {c : Context}

/-- Storing what the log says, in its order, is all that agreement asks. -/
theorem Valid.agrees (hd : d.Valid registered)
    (h : c.stored = (d.lastStores c.logs).map LogEntry.written) : d.Agrees c := by
  have hkeys : c.results.map Prod.fst = (d.lastStores c.logs).map LogEntry.nodeId := by
    rw [← Context.map_fst_stored, h, List.map_map]
    rfl
  have hstored (id : String) :
      id ∈ c.results.map Prod.fst ↔ ∃ a ∈ c.logs, d.Stores a ∧ a.nodeId = id := by
    rw [hkeys, List.mem_map]
    constructor
    · rintro ⟨a, ha, hid⟩
      obtain ⟨hlog, hs⟩ := mem_of_mem_lastStores ha
      exact ⟨a, hlog, hs, hid⟩
    · rintro ⟨a, ha, hs, rfl⟩
      exact exists_lastStores ha hs
  have hdistinct : (c.results.map Prod.fst).Nodup := by
    rw [hkeys]
    exact lastStores_nodup d c.logs
  have hreserved : ∀ id ∈ c.results.map Prod.fst, id ∉ Context.reservedKeys := by
    intro id hid
    obtain ⟨a, -, ⟨-, n, hn, hnid, -⟩, rfl⟩ := (hstored id).mp hid
    rw [← hnid]
    exact (hd.sound n hn).unreserved
  refine ⟨hdistinct, fun r hr => hreserved r.1 (List.mem_map_of_mem hr), ?_, ?_, ?_, h,
    Context.document_keys_nodup hdistinct hreserved⟩
  · intro n hn hrouter
    refine Option.not_isSome_iff_eq_none.mp fun hsome => ?_
    obtain ⟨a, -, ⟨-, m, hm, hmid, hplain⟩, hid⟩ :=
      (hstored n.id).mp (Context.result?_isSome_iff.mp hsome)
    rw [hd.node_inj hm hn (hmid.trans hid), hrouter] at hplain
    cases hplain
  · intro id
    rw [Context.result?_isSome_iff]
    exact hstored id
  · intro id o ho
    have hmem : (id, o.toValue) ∈ c.stored :=
      List.mem_map.mpr ⟨_, Context.mem_of_result? ho, rfl⟩
    rw [h] at hmem
    obtain ⟨a, ha, hwritten⟩ := List.mem_map.mp hmem
    obtain ⟨older, newer, hsplit, hnewer⟩ := split_of_mem_lastStores ha
    obtain ⟨rfl, houtput⟩ := Prod.mk.inj hwritten
    exact ⟨older, a, newer, hsplit, (mem_of_mem_lastStores ha).2, rfl, houtput, hnewer⟩

end Definition

namespace Engine

variable {σ : Type}

/-- At every point of every run of a definition that passes its check, and at its end, the stored
results and the log tell one history. -/
theorem results_agree_with_log (e : Engine σ) {registered : String → Bool}
    {warnings : List Warning} (h : e.definition.check registered = .ok warnings) (input : Value)
    (traceId : String) (s : σ) :
    (∀ k, e.definition.Agrees (e.point input traceId s k).1.context) ∧
    e.definition.Agrees (e.run input traceId s).1.context := by
  have hd := (Definition.check_eq_ok_iff.mp h).1
  have agrees {r : Run} {t : σ} (hr : e.Reaches (.start input traceId) s r t) :
      e.definition.Agrees r.context := hd.agrees (hr.results_eq hd ⟨rfl, rfl⟩)
  constructor
  · intro k
    obtain ⟨r, t, hr, hcontext, -⟩ := e.point_cases input traceId s k
    rw [hcontext]
    exact agrees hr
  · obtain ⟨r, t, hr, hcontext, -⟩ := e.runFrom_cases (.start input traceId) s
    rw [run, hcontext]
    exact agrees hr

/-- A transform that works on its first execution only, and a router that goes back to it. -/
def stampLoop : Engine Unit where
  definition := ⟨"loop", [⟨"stamp", none, false, .transform "once"⟩,
    ⟨"again", none, false, .route [⟨.tree .always, "stamp"⟩]⟩]⟩
  collaborators := .none
  transforms := [⟨"once", fun _ c =>
    if c.logs.isEmpty then .ok (.string "first") else .error (.transform "once" "done")⟩]
  replies := .standard
  maxSteps := 5
  timeout := 0
  now := .standing ⟨0⟩

/-- The second execution of the transform fails, and the result of the first one stays. -/
theorem stampLoop_results_agree :
    stampLoop.definition.check stampLoop.transforms.contains = .ok [.backward "again" "stamp"] ∧
    stampLoop.definition.Agrees (stampLoop.run .null "trace" ()).1.context ∧
    (stampLoop.run .null "trace" ()).1.context.logs.map LogEntry.status =
      [.success, .success, .failed] ∧
    (stampLoop.run .null "trace" ()).1.context.results =
      [("stamp", .transform (.string "first"))] := by
  have hcheck : stampLoop.definition.check stampLoop.transforms.contains =
      .ok [.backward "again" "stamp"] := rfl
  exact ⟨hcheck, (results_agree_with_log stampLoop hcheck .null "trace" ()).2, rfl, rfl⟩

end Engine

end TriageFlow
