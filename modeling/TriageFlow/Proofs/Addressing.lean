import TriageFlow.Proofs.History
import TriageFlow.Proofs.PathText
import TriageFlow.Proofs.Resolution

/-!
Which nodes a path can name. An id without dots names a path of one segment, and reading the path
takes the blanks from the ends of the id (`Path.ofText_of_undotted`). The check of a definition
refuses blank ids and lets ids with blanks at their ends pass. An id that is without them names
what its node gave last, in rules and in templates; the result of any other id is seen by no path
that a text names (`Context.lookup_record_of_untrimmed`).
-/

namespace TriageFlow

open Json (Value)

/-! ## Paths of one segment -/

namespace Path

/-- A text without dots names a path of one segment, without the blanks at its ends. -/
theorem ofText_of_undotted {text : String} (h : '.' ∉ text.toList) :
    ofText text = ⟨Text.trimmed text, []⟩ := by
  unfold ofText
  rw [Text.split_of_not_mem h]
  rfl

/-- The root of a path that a text names has no blanks at its ends. -/
theorem trimmed_root_ofText (text : String) :
    Text.trimmed (ofText text).root = (ofText text).root := by
  have hroot : (ofText text).root =
      String.ofList (Text.trim (Text.split '.' text.toList).1) := rfl
  rw [hroot, Text.trimmed, String.toList_ofList, Text.trim_trim]

end Path

namespace Context

variable {c : Context} {id key : String} {o : Output}

theorem root?_of_unreserved (h : key ∉ reservedKeys) :
    c.root? key = (c.result? key).map Output.toValue := by
  simp only [reservedKeys, List.mem_cons, List.not_mem_nil, or_false, not_or] at h
  obtain ⟨hinput, hcontent, htrace, hlogs⟩ := h
  unfold root?
  rw [if_neg hinput, if_neg hcontent, if_neg htrace, if_neg hlogs]

/-- What is stored under an id with blanks at its ends is seen by no path that a text names. -/
theorem lookup_record_of_untrimmed (hid : Text.trimmed id ≠ id) (text : String) :
    (c.record id o).lookup (.ofText text) = c.lookup (.ofText text) := by
  have hne : (Path.ofText text).root ≠ id := fun h =>
    hid (h ▸ Path.trimmed_root_ofText text)
  unfold lookup root?
  rw [result?_record_of_ne hne]
  rfl

/-- The entry of the latest success of a node. -/
def latestSuccess? (c : Context) (id : String) : Option LogEntry :=
  (c.logs.filter fun a => a.nodeId = id ∧ a.status = .success).getLast?

end Context

namespace Definition

variable {d : Definition} {c : Context} {n : Node} {a : LogEntry}

/-- A node that has succeeded has its latest output stored. -/
theorem Agrees.result?_of_latestSuccess (h : d.Agrees c) (hn : n ∈ d.nodes)
    (hplain : n.isRouter = false) (ha : c.latestSuccess? n.id = some a) :
    ∃ o, c.result? n.id = some o ∧ o.toValue = a.output := by
  have hstores (b : LogEntry) (hid : b.nodeId = n.id) (hstatus : b.status = .success) :
      d.Stores b := ⟨hstatus, n, hn, hid.symm, hplain⟩
  obtain ⟨hlog, hid, hstatus⟩ : a ∈ c.logs ∧ a.nodeId = n.id ∧ a.status = .success := by
    simpa using List.mem_of_getLast? ha
  obtain ⟨o, ho⟩ := Option.isSome_iff_exists.mp
    ((h.stored_iff n.id).mpr ⟨a, hlog, hstores a hid hstatus, hid⟩)
  obtain ⟨older, b, newer, hlogs, hb, hbid, houtput, hnewer⟩ := h.latest n.id o ho
  have hlater : newer.filter (fun x => x.nodeId = n.id ∧ x.status = .success) = [] := by
    rw [List.filter_eq_nil_iff]
    intro x hx hmatch
    obtain ⟨hxid, hxstatus⟩ := of_decide_eq_true hmatch
    exact hnewer x hx (hstores x hxid hxstatus) hxid
  have hlast : c.latestSuccess? n.id = some b := by
    unfold Context.latestSuccess?
    rw [hlogs, List.filter_append, List.filter_cons_of_pos (by simp [hbid, hb.1]), hlater]
    exact List.getLast?_concat
  obtain rfl : a = b := Option.some.inj (ha.symm.trans hlast)
  exact ⟨o, ho, houtput.symm⟩

/-- The path of an id without blanks at its ends names what its node gave last. -/
theorem Agrees.lookup_id {registered : String → Bool} (h : d.Agrees c)
    (hd : d.Valid registered) (hn : n ∈ d.nodes) (hplain : n.isRouter = false)
    (htrim : Text.trimmed n.id = n.id) (ha : c.latestSuccess? n.id = some a) :
    c.lookup (.ofText n.id) = some a.output := by
  have hsound := hd.sound n hn
  obtain ⟨o, ho, houtput⟩ := h.result?_of_latestSuccess hn hplain ha
  rw [Path.ofText_of_undotted hsound.undotted, htrim]
  unfold Context.lookup
  rw [Context.root?_of_unreserved hsound.unreserved, ho, ← houtput]
  rfl

end Definition

/-- The path of the id of a sound node has no empty segment. -/
theorem Node.Sound.ofText_id {registered : String → Bool} {n : Node} (h : n.Sound registered) :
    (Path.ofText n.id).hasEmptySegment = false ∧ (Path.ofText n.id).rest = [] := by
  rw [Path.ofText_of_undotted h.undotted]
  have hne : Text.trimmed n.id ≠ "" := by
    intro hempty
    refine h.nonblank ?_
    rw [← String.toList_ofList (l := Text.trim n.id.toList)]
    exact congrArg String.toList hempty
  exact ⟨by simp [Path.hasEmptySegment, Path.segments, hne], rfl⟩

namespace Engine

variable {σ : Type}

/-- The contexts that a run on an inbound record comes to, at its points and at its end. -/
def ComesTo (e : Engine σ) (input : Value) (traceId : String) (s : σ) (c : Context) : Prop :=
  (∃ k, (e.point input traceId s k).1.context = c) ∨ (e.run input traceId s).1.context = c

theorem ComesTo.exists_reaches {e : Engine σ} {input : Value} {traceId : String} {s : σ}
    {c : Context} (h : e.ComesTo input traceId s c) :
    ∃ r t, e.Reaches (.start input traceId) s r t ∧ r.context = c := by
  rcases h with ⟨k, rfl⟩ | rfl
  · obtain ⟨r, t, hr, hcontext, -⟩ := e.point_cases input traceId s k
    exact ⟨r, t, hr, hcontext.symm⟩
  · obtain ⟨r, t, hr, hcontext, -⟩ := e.runFrom_cases (.start input traceId) s
    exact ⟨r, t, hr, hcontext.symm⟩

/-- In every context that a run of a definition that passes its check comes to, the latest output of
a node that is no router and whose id has no blanks at its ends is what the path of the id names, in
a lookup, in a rule and in a template. What a node with blanks at the ends of its id gives is seen
by no path that a text names: such a path names the same whatever is stored under the id. -/
theorem trimmed_ids_are_addressable (e : Engine σ) {registered : String → Bool}
    {warnings : List Warning} (h : e.definition.check registered = .ok warnings) {input : Value}
    {traceId : String} {s : σ} {c : Context} (hc : e.ComesTo input traceId s c) {n : Node}
    (hn : n ∈ e.definition.nodes) (hplain : n.isRouter = false) {a : LogEntry}
    (ha : c.latestSuccess? n.id = some a) :
    (Text.trimmed n.id = n.id →
      c.lookup (.ofText n.id) = some a.output ∧
      (Predicate.field (.ofText n.id)).evaluate c = .ok a.output ∧
      ∀ name, Template.pathOf name = .ofText n.id →
        Template.expand c (.placeholder name) = (Template.render (some a.output)).toList) ∧
    (Text.trimmed n.id ≠ n.id → ∀ (text : String) (o : Output),
      (c.record n.id o).lookup (.ofText text) = c.lookup (.ofText text)) := by
  have hd := (Definition.check_eq_ok_iff.mp h).1
  obtain ⟨r, t, hr, rfl⟩ := hc.exists_reaches
  have hagrees := hd.agrees (hr.results_eq hd ⟨rfl, rfl⟩)
  refine ⟨fun htrim => ?_, fun htrim text o => Context.lookup_record_of_untrimmed htrim text⟩
  have hlookup := hagrees.lookup_id hd hn hplain htrim ha
  obtain ⟨hsegments, hrest⟩ := (hd.sound n hn).ofText_id
  refine ⟨hlookup, ?_, fun name hname => ?_⟩
  · obtain ⟨v, hv⟩ := Context.exists_resolve_of_root (c := r.context) hsegments hrest
    have hvalue := ((Context.resolve_eq_ok_iff hsegments).mp hv).2
    rw [hlookup] at hvalue
    rw [Predicate.evaluate, hv, ← hvalue]
    rfl
  · rw [Template.expand, hname, hlookup]

/-- A clerk who notes down and files in turn; the files have an id with blanks at its ends. -/
def clerk : Engine Unit where
  definition := ⟨"clerk", [⟨"last note", none, false, .transform "note"⟩,
    ⟨" file ", none, false, .generate "{{last note}}"⟩,
    ⟨"again", none, false, .route [⟨.tree .always, "last note"⟩]⟩]⟩
  collaborators := .none
  transforms := [⟨"note", fun _ c =>
    .ok (.string (if c.logs.isEmpty then "first" else "second"))⟩]
  replies := .standard
  maxSteps := 4
  timeout := 0
  now := .standing ⟨0⟩

/-- After the second note its path names this one, and no more the first. -/
theorem clerk_note_is_addressable :
    clerk.definition.check clerk.transforms.contains = .ok [.backward "again" "last note"] ∧
    (clerk.point .null "trace" () 4).1.context.latestSuccess? "last note" =
      some ⟨"trace", "last note", .success, .string "second", 0, ⟨0⟩⟩ ∧
    (clerk.point .null "trace" () 4).1.context.lookup (.ofText "last note") =
      some (.string "second") := by
  have hcheck : clerk.definition.check clerk.transforms.contains =
      .ok [.backward "again" "last note"] := rfl
  have hlatest : (clerk.point .null "trace" () 4).1.context.latestSuccess? "last note" =
      some ⟨"trace", "last note", .success, .string "second", 0, ⟨0⟩⟩ := rfl
  have hmem : (⟨"last note", none, false, .transform "note"⟩ : Node) ∈ clerk.definition.nodes :=
    List.mem_cons_self
  have htrim : Text.trimmed "last note" = "last note" := by decide
  have haddressed :=
    trimmed_ids_are_addressable clerk hcheck (.inl ⟨4, rfl⟩) hmem rfl hlatest
  exact ⟨hcheck, hlatest, (haddressed.1 htrim).1⟩

/-- The clerk's definition passes its check and the file is stored, but the path of its id names
nothing. -/
theorem clerk_file_is_not_addressable :
    clerk.definition.check clerk.transforms.contains = .ok [.backward "again" "last note"] ∧
    (clerk.point .null "trace" () 4).1.context.latestSuccess? " file " =
      some ⟨"trace", " file ", .success, .string "AI not configured.", 0, ⟨0⟩⟩ ∧
    (clerk.point .null "trace" () 4).1.context.lookup (.ofText " file ") = none :=
  ⟨rfl, rfl, rfl⟩

end Engine

end TriageFlow
