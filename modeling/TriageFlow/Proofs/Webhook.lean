import TriageFlow.Proofs.Reach
import TriageFlow.Web.Gateway

/-!
What a webhook does with a request. The token comes first: a request without it is refused
whatever else stands in it. Then the body is read, in whatever way the server reads bodies, and a
message is looked for, by the gateway and once more by the context of the run; both find the same
text (`hasMessage_iff`, `Context.content?_eq_some_iff`), so that no run of a webhook starts from the
placeholder. A refused request starts no run: its answer and the state after it are the same under
every engine. Of the standard way to read bodies only its limit is spoken of
(`Request.not_reads_of_too_long`).
-/

namespace TriageFlow

open Json (Value Fields)

/-! ## The content of an inbound record -/

namespace Context

variable {input : Value} {content key : String}

/-- A text that is not empty is there under one of the keys of contents. -/
def HasText (input : Value) : Prop :=
  ∃ key ∈ contentFields, ∃ text, text ≠ "" ∧ input.field? key = some (.string text)

/-- The first text that is not empty under the keys of contents. -/
def FirstText (input : Value) (content : String) : Prop :=
  ∃ before key after, contentFields = before ++ key :: after ∧
    input.field? key = some (.string content) ∧ content ≠ "" ∧
    ∀ k ∈ before, ∀ text, input.field? k = some (.string text) → text = ""

theorem usableText?_eq_some_iff :
    usableText? input key = some content ↔
      input.field? key = some (.string content) ∧ content ≠ "" := by
  unfold usableText?
  split
  · rename_i text hfield
    by_cases htext : text = "" <;> simp [hfield, htext]
    rintro rfl
    exact htext
  · rename_i hother
    simp only [reduceCtorEq, false_iff, not_and]
    exact fun hfield => absurd hfield (hother content)

theorem usableText?_eq_none_iff :
    usableText? input key = none ↔
      ∀ text, input.field? key = some (.string text) → text = "" := by
  rw [Option.eq_none_iff_forall_ne_some]
  refine forall_congr' fun text => ?_
  rw [Ne, usableText?_eq_some_iff, not_and, Ne, Classical.not_not]

theorem content?_eq_some_iff : content? input = some content ↔ FirstText input content := by
  unfold content? FirstText
  rw [List.findSome?_eq_some_iff]
  simp only [usableText?_eq_some_iff, usableText?_eq_none_iff, and_assoc]

theorem content?_isSome_iff : (content? input).isSome ↔ HasText input := by
  unfold content? HasText
  rw [List.findSome?_isSome_iff]
  refine exists_congr fun key => and_congr_right fun _ => ?_
  rw [Option.isSome_iff_exists]
  exact exists_congr fun text => usableText?_eq_some_iff.trans and_comm

/-- A record with a text has a first one, which is the content of its runs. -/
theorem HasText.exists_first (h : HasText input) :
    ∃ content, FirstText input content ∧ contentOf input = content := by
  obtain ⟨content, hcontent⟩ := Option.isSome_iff_exists.mp (content?_isSome_iff.mpr h)
  exact ⟨content, content?_eq_some_iff.mp hcontent, by rw [contentOf, hcontent, Option.getD_some]⟩

end Context

/-! ## Runs on an inbound record -/

/-- A run keeps its inbound record, its content and its trace id. -/
theorem Engine.run_origin {σ : Type} (e : Engine σ) (input : Value) (traceId : String) (s : σ) :
    (e.run input traceId s).1.context.input = input ∧
    (e.run input traceId s).1.context.content = Context.contentOf input ∧
    (e.run input traceId s).1.context.traceId = traceId := by
  obtain ⟨r, t, hr, hcontext, -⟩ := e.runFrom_cases (.start input traceId) s
  have horigin := hr.origin
  rw [← hcontext] at horigin
  exact horigin

namespace Web

/-! ## Requests -/

theorem hasMessage_iff {body : Value} : hasMessage body = true ↔ Context.HasText body := by
  unfold hasMessage Context.HasText
  rw [List.any_eq_true]
  refine exists_congr fun key => and_congr_right fun _ => ?_
  rw [Option.any_eq_true]
  constructor
  · rintro ⟨text, htext, hne⟩
    obtain ⟨v, hfield, hv⟩ := Option.bind_eq_some_iff.mp htext
    cases v with
    | string t =>
      obtain rfl := Option.some.inj hv
      exact ⟨t, by simpa using hne, hfield⟩
    | _ => cases hv
  · rintro ⟨text, hne, hfield⟩
    exact ⟨text, by rw [hfield]; rfl, by simpa using hne⟩

theorem Request.header?_eq_some_iff {r : Request} {name value : String} :
    r.header? name = some value ↔ r.firstValue? name = some value ∧ isPlain value = true :=
  Option.filter_eq_some_iff

theorem Request.token?_eq_some_iff {r : Request} {token : String} :
    r.token? = some token ↔ r.header? "authorization" = some ("Bearer " ++ token) := by
  have htoken : tokenMark = "Bearer ".toList := by decide
  have hmark (value : String) : (Text.dropStart? tokenMark value.toList).map String.ofList =
      some token ↔ value = "Bearer " ++ token := by
    rw [Option.map_eq_some_iff]
    constructor
    · rintro ⟨rest, hrest, rfl⟩
      have hvalue : value.toList = tokenMark ++ rest := Text.dropStart?_eq_some_iff.mp hrest
      have hrest' : (String.ofList rest).toList = rest := String.toList_ofList
      rw [← String.toList_inj, String.toList_append, hrest', hvalue, htoken]
    · rintro rfl
      exact ⟨token.toList, Text.dropStart?_eq_some_iff.mpr (String.toList_append ..),
        String.ofList_toList⟩
  unfold Request.token?
  rw [Option.bind_eq_some_iff]
  constructor
  · rintro ⟨value, hvalue, htoken⟩
    rw [hvalue, (hmark value).mp htoken]
  · exact fun h => ⟨_, h, (hmark _).mpr rfl⟩

/-- The content type of a request is that of a form. -/
def Request.DeclaresForm (r : Request) : Prop :=
  ∃ contentType, r.firstValue? "content-type" = some contentType ∧ isPlain contentType = true ∧
    "application/x-www-form-urlencoded".toList <+: contentType.toList

theorem Request.isForm_iff {r : Request} : r.isForm = true ↔ r.DeclaresForm := by
  unfold Request.isForm Request.DeclaresForm
  rw [Option.any_eq_true]
  refine exists_congr fun contentType => ?_
  rw [Request.header?_eq_some_iff, and_assoc, List.isPrefixOf_iff_prefix]
  rfl

/-- The inbound record that an extraction makes of a body: the object of the fields of a form, and
under any other content type the value of a JSON text. -/
def Request.Reads (r : Request) (x : Extraction) (input : Value) : Prop :=
  (r.DeclaresForm ∧ ∃ fields, x.form r = .ok fields ∧
    input = .ofMembers (fields.map fun field => (field.1, .string field.2))) ∨
  (¬r.DeclaresForm ∧ x.json r = .ok input)

theorem Request.read_eq_ok_iff {r : Request} {x : Extraction} {input : Value} :
    r.read x = .ok input ↔ r.Reads x input := by
  unfold Request.read Request.Reads
  rw [← Request.isForm_iff]
  cases r.isForm with
  | true => cases x.form r <;> simp [Except.map, eq_comm]
  | false => simp

theorem Request.payload_eq_ok_iff {r : Request} {x : Extraction} {input : Value} :
    r.payload x = .ok input ↔ r.Reads x input := by
  rw [← Request.read_eq_ok_iff, Request.payload]
  cases r.read x with
  | ok v => exact ⟨fun h => by cases h; rfl, fun h => by cases h; rfl⟩
  | error reason => exact ⟨nofun, nofun⟩

/-- A body that cannot be read is refused as a bad request. -/
theorem Request.exists_refusal_of_unread {r : Request} {x : Extraction}
    (h : ∀ input, ¬r.Reads x input) :
    ∃ refusal, r.payload x = .error refusal ∧ refusal.status = 400 := by
  unfold Request.payload
  cases hread : r.read x with
  | ok input => exact absurd (Request.read_eq_ok_iff.mp hread) (h input)
  | error reason => exact ⟨_, rfl, rfl⟩

/-- A body that is longer than the limit cannot be read in the standard way. -/
theorem Request.not_reads_of_too_long {r : Request}
    (h : Extraction.bodyLimit < r.body.bytes.length) (input : Value) :
    ¬r.Reads .standard input := by
  have hbytes : Extraction.boundedBytes r =
      .error "Failed to buffer the request body: length limit exceeded" :=
    if_neg (Nat.not_le_of_lt h)
  unfold Request.Reads Extraction.standard
  dsimp only
  rw [hbytes]
  rintro (⟨-, fields, hform, -⟩ | ⟨-, hjson⟩)
  · cases hform
  · split at hjson
    · cases hjson
    · cases hjson

/-- The body of the answer is an object that tells whether the request was handled well. -/
def Response.Tells (response : Response) (success : Bool) : Prop :=
  ∃ body : Value, response.body = some body ∧ body.field? "success" = some (.bool success)

theorem Refusal.tells (refusal : Refusal) : refusal.response.Tells false :=
  ⟨_, rfl, Value.field?_ofMembers ..⟩

theorem outcome_field? {σ : Type} (g : Gateway σ) (run : Run) :
    (g.outcome run).field? "success" = some (.bool (run.status == .completed)) ∧
    (g.outcome run).field? "trace_id" = some (.string run.context.traceId) ∧
    (g.outcome run).field? "response" = some (.string (run.reply g.engine.replies)) := by
  simp [Gateway.outcome, Value.field?_ofMembers, List.lookup_cons]

namespace Gateway

variable {σ : Type} {g : Gateway σ} {x : Extraction} {r : Request} {traceId : String} {s : σ}

/-- The request bears the token that the gateway asks for, if it asks for one. A header with
characters beyond ASCII counts as absent, and no such token is ever borne. -/
def Trusts (g : Gateway σ) (r : Request) : Prop :=
  ∀ token, g.token = some token →
    r.firstValue? "authorization" = some ("Bearer " ++ token) ∧ isPlain ("Bearer " ++ token) = true

theorem admits_iff : g.admits r = true ↔ g.Trusts r := by
  unfold admits Trusts
  split
  · rename_i token htoken
    rw [beq_iff_eq, Request.token?_eq_some_iff, Request.header?_eq_some_iff]
    constructor
    · intro h token' htoken'
      obtain rfl := Option.some.inj (htoken.symm.trans htoken')
      exact h
    · exact fun h => h token htoken
  · rename_i htoken
    simp [htoken]

theorem webhook_of_refused {refusal : Refusal} (h : g.accept x r = .error refusal) :
    g.webhook x r traceId s = (refusal.response, s) := by
  unfold webhook
  rw [h]

theorem webhook_of_accepted {input : Value} (h : g.accept x r = .ok input) :
    g.webhook x r traceId s = (⟨200, some (g.outcome (g.engine.run input traceId s).1)⟩,
      (g.engine.run input traceId s).2) := by
  unfold webhook
  rw [h]

theorem accept_of_not_trusts (h : ¬g.Trusts r) : g.accept x r = .error .unauthorized := by
  unfold accept
  rw [if_neg (mt admits_iff.mp h)]

theorem accept_of_payload_error {refusal : Refusal} (h : g.Trusts r)
    (hpayload : r.payload x = .error refusal) : g.accept x r = .error refusal := by
  unfold accept
  rw [if_pos (admits_iff.mpr h), hpayload]

theorem accept_of_no_text {input : Value} (h : g.Trusts r) (hpayload : r.payload x = .ok input)
    (htext : ¬Context.HasText input) : g.accept x r = .error .noMessage := by
  unfold accept
  rw [if_pos (admits_iff.mpr h), hpayload]
  exact if_neg (mt hasMessage_iff.mp htext)

theorem accept_of_text {input : Value} (h : g.Trusts r) (hpayload : r.payload x = .ok input)
    (htext : Context.HasText input) : g.accept x r = .ok input := by
  unfold accept
  rw [if_pos (admits_iff.mpr h), hpayload]
  exact if_pos (hasMessage_iff.mpr htext)

theorem respond_of_post (hmethod : r.method = "POST") (hpath : r.path = "/webhook") :
    g.respond x r traceId s = g.webhook x r traceId s := by
  unfold respond
  rw [hmethod, hpath]
  simp

/-! ## The gate -/

/-- The request is refused with a code, and no run is started: whatever the engine is, the answer
is the same and the state stays as it is. -/
structure Refuses (g : Gateway σ) (x : Extraction) (r : Request) (traceId : String) (s : σ)
    (status : Nat) : Prop where
  idle : ∀ e : Engine σ, respond ⟨e, g.token⟩ x r traceId s = ((g.respond x r traceId s).1, s)
  status_eq : (g.respond x r traceId s).1.status = status
  tells : (g.respond x r traceId s).1.Tells false

/-- The request is answered with what one run on an inbound record gives. -/
structure Serves (g : Gateway σ) (x : Extraction) (r : Request) (input : Value) (traceId : String)
    (s : σ) (run : Run) : Prop where
  run_eq : g.engine.run input traceId s = (run, (g.respond x r traceId s).2)
  input_eq : run.context.input = input
  /-- The content is no placeholder. -/
  content : Context.FirstText input run.context.content
  status_eq : (g.respond x r traceId s).1.status = 200
  tells : (g.respond x r traceId s).1.Tells (run.status == .completed)
  body : ∃ body : Value, (g.respond x r traceId s).1.body = some body ∧
    body.field? "trace_id" = some (.string run.context.traceId) ∧
    body.field? "response" = some (.string (run.reply g.engine.replies))
  /-- The cause of an abort is not told. -/
  failure : run.status = .aborted → run.reply g.engine.replies = g.engine.replies.failure

theorem refuses_of_accept {refusal : Refusal} (hmethod : r.method = "POST")
    (hpath : r.path = "/webhook") (h : g.accept x r = .error refusal) (traceId : String) (s : σ) :
    g.respond x r traceId s = (refusal.response, s) ∧ g.Refuses x r traceId s refusal.status := by
  have hanswer (e : Engine σ) : respond ⟨e, g.token⟩ x r traceId s = (refusal.response, s) := by
    rw [respond_of_post hmethod hpath]
    exact webhook_of_refused h
  have hself : g.respond x r traceId s = (refusal.response, s) := hanswer g.engine
  refine ⟨hself, ⟨fun e => ?_, ?_, ?_⟩⟩
  · rw [hself, hanswer e]
  · rw [hself]
    rfl
  · rw [hself]
    exact refusal.tells

theorem serves_of_accept {input : Value} (hmethod : r.method = "POST")
    (hpath : r.path = "/webhook") (h : g.accept x r = .ok input) (htext : Context.HasText input)
    (traceId : String) (s : σ) :
    g.Serves x r input traceId s (g.engine.run input traceId s).1 := by
  have hanswer : g.respond x r traceId s =
      (⟨200, some (g.outcome (g.engine.run input traceId s).1)⟩,
        (g.engine.run input traceId s).2) := by
    rw [respond_of_post hmethod hpath, webhook_of_accepted h]
  obtain ⟨hinput, hcontent, -⟩ := g.engine.run_origin input traceId s
  obtain ⟨content, hfirst, hcontentOf⟩ := htext.exists_first
  refine ⟨?_, hinput, ?_, ?_, ?_, ?_, fun haborted => Run.reply_of_aborted haborted _⟩
  · rw [hanswer]
  · rw [hcontent, hcontentOf]
    exact hfirst
  · rw [hanswer]
  · rw [hanswer]
    exact ⟨_, rfl, (outcome_field? g _).1⟩
  · rw [hanswer]
    exact ⟨_, rfl, (outcome_field? g _).2⟩

/-- What comes of a posted webhook, in whatever way bodies are read. Without the token it is refused
as unauthorized, which depends on the token alone; with it, a body that cannot be read and a body
without a message are bad requests; any other body is run once. Every answer tells whether it was
handled well. -/
theorem webhook_gate (g : Gateway σ) (x : Extraction) {r : Request} (hmethod : r.method = "POST")
    (hpath : r.path = "/webhook") (traceId : String) (s : σ) :
    (¬g.Trusts r → g.Refuses x r traceId s 401 ∧
      ∀ (x' : Extraction) (r' : Request), r'.method = r.method → r'.target = r.target →
        r'.firstValue? "authorization" = r.firstValue? "authorization" →
        g.respond x' r' traceId s = g.respond x r traceId s) ∧
    (g.Trusts r →
      ((∀ input, ¬r.Reads x input) → g.Refuses x r traceId s 400) ∧
      ∀ input, r.Reads x input →
        (¬Context.HasText input → g.Refuses x r traceId s 400) ∧
        (Context.HasText input →
          g.Serves x r input traceId s (g.engine.run input traceId s).1)) ∧
    ∃ success, (g.respond x r traceId s).1.Tells success := by
  refine ⟨fun htrust => ?_, fun htrust => ⟨fun hunread => ?_, fun input hreads =>
    ⟨fun htext => ?_, fun htext => ?_⟩⟩, ?_⟩
  · have hrefused := refuses_of_accept hmethod hpath (accept_of_not_trusts (x := x) htrust) traceId s
    refine ⟨hrefused.2, fun x' r' hmethod' htarget' hheader' => ?_⟩
    have htrust' : ¬g.Trusts r' := by
      unfold Trusts
      rw [hheader']
      exact htrust
    have hpath' : r'.path = "/webhook" := by
      rw [← hpath, Request.path, Request.path, htarget']
    have hrefused' := refuses_of_accept (hmethod'.trans hmethod) hpath'
      (accept_of_not_trusts (x := x') htrust') traceId s
    rw [hrefused'.1, hrefused.1]
  · obtain ⟨refusal, hpayload, hstatus⟩ := Request.exists_refusal_of_unread hunread
    rw [← hstatus]
    exact (refuses_of_accept hmethod hpath (accept_of_payload_error htrust hpayload) traceId s).2
  · have hpayload := Request.payload_eq_ok_iff.mpr hreads
    exact (refuses_of_accept hmethod hpath (accept_of_no_text htrust hpayload htext) traceId s).2
  · have hpayload := Request.payload_eq_ok_iff.mpr hreads
    exact serves_of_accept hmethod hpath (accept_of_text htrust hpayload htext) htext traceId s
  · cases haccept : g.accept x r with
    | error refusal => exact ⟨false, (refuses_of_accept hmethod hpath haccept traceId s).2.tells⟩
    | ok input =>
      rw [respond_of_post hmethod hpath, webhook_of_accepted haccept]
      exact ⟨_, _, rfl, (outcome_field? g _).1⟩

/-- A desk that answers with what was said to it, and counts its answers. -/
def kiosk : Engine Nat where
  definition := ⟨"kiosk", [⟨"answer", none, false, .generate "You said: {{content}}"⟩]⟩
  collaborators := ⟨some ⟨"echo", fun _ _ prompt n => (.settled (.ok (.text prompt)) 0, n + 1)⟩,
    none, none⟩
  transforms := []
  replies := .standard
  maxSteps := 4
  timeout := 0
  now := .standing ⟨0⟩

/-- A posted body, with a token. -/
def posted (token contentType : String) (body : Body) : Request :=
  ⟨"POST", "/webhook", [("Authorization", "Bearer " ++ token), ("content-type", contentType)], body⟩

/-- A posted form, with a token. -/
def postedForm (token body : String) : Request :=
  posted token "application/x-www-form-urlencoded; charset=utf-8" body

/-- The desk that asks for a key refuses another one, and serves a form with a text and an empty
message. JSON text of one byte more than the limit is a bad request. -/
theorem kiosk_gate :
    Refuses ⟨kiosk, some "key"⟩ .standard (postedForm "kex" "message=&text=hi") "trace" 0 401 ∧
    Serves ⟨kiosk, some "key"⟩ .standard (postedForm "key" "message=&text=hi")
      (.ofMembers [("message", .string ""), ("text", .string "hi")]) "trace" 0
      (kiosk.run (.ofMembers [("message", .string ""), ("text", .string "hi")]) "trace" 0).1 ∧
    (kiosk.run (.ofMembers [("message", .string ""), ("text", .string "hi")]) "trace" 0).1.reply
      kiosk.replies = "You said: hi" ∧
    Refuses ⟨kiosk, some "key"⟩ .standard (posted "key" "application/json"
      ⟨List.replicate (Extraction.bodyLimit + 1) (ascii '0')⟩) "trace" 0 400 := by
  have hrefused : ¬Trusts ⟨kiosk, some "key"⟩ (postedForm "kex" "message=&text=hi") :=
    fun h => absurd (h "key" rfl) (by decide)
  have htrust (contentType : String) (body : Body) :
      Trusts ⟨kiosk, some "key"⟩ (posted "key" contentType body) := by
    rintro token ⟨⟩
    exact ⟨rfl, by decide⟩
  have hpath (token contentType : String) (body : Body) :
      (posted token contentType body).path = "/webhook" := by
    show String.ofList ("/webhook".toList.takeWhile fun c => c ≠ '?' ∧ c ≠ '#') = "/webhook"
    decide
  have hgate (token contentType : String) (body : Body) :=
    webhook_gate ⟨kiosk, some "key"⟩ .standard (r := posted token contentType body) rfl
      (hpath token contentType body) "trace" 0
  have hserved (contentType : String) (body : Body) :=
    (hgate "key" contentType body).2.1 (htrust contentType body)
  have hreads : (postedForm "key" "message=&text=hi").Reads .standard
      (.ofMembers [("message", .string ""), ("text", .string "hi")]) :=
    Request.payload_eq_ok_iff.mp rfl
  have htext : Context.HasText (.ofMembers [("message", .string ""), ("text", .string "hi")]) :=
    ⟨"text", by decide, "hi", by decide, by rfl⟩
  have htooLong : Extraction.bodyLimit < (posted "key" "application/json"
      ⟨List.replicate (Extraction.bodyLimit + 1) (ascii '0')⟩).body.bytes.length := by
    simp only [posted, List.length_replicate, Nat.lt_succ_self]
  exact ⟨((hgate ..).1 hrefused).1, ((hserved ..).2 _ hreads).2 htext, by rfl,
    (hserved ..).1 (Request.not_reads_of_too_long htooLong)⟩

/-- A request whose header is exactly the mark and the token is refused if the token is not plain
ASCII. -/
theorem kiosk_refuses_accented_token :
    (postedForm "clé" "message=hi").firstValue? "authorization" = some ("Bearer " ++ "clé") ∧
    (postedForm "clé" "message=hi").Reads .standard (.ofMembers [("message", .string "hi")]) ∧
    (answer ⟨kiosk, some "clé"⟩ (postedForm "clé" "message=hi") "trace" 0).1.status = 401 := by
  refine ⟨?_, Request.payload_eq_ok_iff.mp ?_, ?_⟩ <;> rfl

end Gateway

end Web

end TriageFlow
