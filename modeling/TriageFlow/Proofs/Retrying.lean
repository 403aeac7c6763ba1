import Mathlib.Data.List.Infix
import TriageFlow.Model.Completion

/-!
Which failing answers of the model are asked for again. The status and the body of such an answer
become one message, and the marks of a passing failure are looked for anywhere in it. A mark cannot
reach from one part of the message into the next (`holdsMark_append_cons_iff`), and the fixed parts
hold none, so a request is repeated exactly if the status is one of four codes or the body holds a
mark (`Generative.repeated_iff_passing`). The status alone does not decide.
-/

namespace TriageFlow

/-! ## Marks in a text -/

namespace Text

variable {pattern cs rest : List Char} {c : Char}

theorem occurs_iff : occurs pattern cs = true ↔ pattern <:+: cs := by
  induction cs with
  | nil => rw [occurs, List.isEmpty_iff, List.infix_nil]
  | cons c cs ih => rw [occurs, Bool.or_eq_true, List.isPrefixOf_iff_prefix, ih, List.infix_cons_iff]

/-- A pattern without a separator stands on one side of it. -/
theorem infix_append_cons_iff (h : c ∉ pattern) :
    pattern <:+: cs ++ c :: rest ↔ pattern <:+: cs ∨ pattern <:+: rest := by
  have prefix_nil {left : List Char} (hleft : c ∉ left) (hhead : left <+: c :: rest) :
      left = [] := by
    rcases List.prefix_cons_iff.mp hhead with rfl | ⟨tail, rfl, -⟩
    · rfl
    · exact absurd List.mem_cons_self hleft
  rw [List.infix_append_iff, List.infix_cons_iff]
  constructor
  · rintro (hcs | (hhead | hrest) | ⟨left, right, rfl, hsuffix, hhead⟩)
    · exact .inl hcs
    · rw [prefix_nil h hhead]
      exact .inl (List.nil_infix)
    · exact .inr hrest
    · rw [prefix_nil (fun hc => h (List.mem_append_right left hc)) hhead, List.append_nil]
      exact .inl hsuffix.isInfix
  · rintro (hcs | hrest)
    · exact .inl hcs
    · exact .inr (.inl (.inr hrest))

/-- The digits of a number tell the number. -/
theorem ofNat_inj {n m : Nat} (h : ofNat n = ofNat m) : n = m := by
  have hdigits := congrArg (fun cs => Nat.ofDigitChars 10 cs 0) (String.ofList_injective h)
  simpa only [Nat.ofDigitChars_ten_toDigits] using hdigits

end Text

/-- A text that holds a mark of a passing failure. -/
def HoldsMark (cs : List Char) : Prop := ∃ mark ∈ passingMarks, mark.toList <:+: cs

theorem any_occurs_iff {cs : List Char} :
    (passingMarks.any fun mark => Text.occurs mark.toList cs) = true ↔ HoldsMark cs := by
  rw [List.any_eq_true]
  exact exists_congr fun mark => and_congr_right fun _ => Text.occurs_iff

instance : DecidablePred HoldsMark := fun _ => decidable_of_iff _ any_occurs_iff

section Marks

variable {cs rest : List Char} {c : Char}

theorem isPassing_service_iff (name message : String) :
    (Fault.service name message).isPassing = true ↔ HoldsMark message.toList := any_occurs_iff

theorem holdsMark_append_cons_iff (hc : ∀ mark ∈ passingMarks, c ∉ mark.toList) :
    HoldsMark (cs ++ c :: rest) ↔ HoldsMark cs ∨ HoldsMark rest := by
  unfold HoldsMark
  rw [← exists_or]
  refine exists_congr fun mark => ?_
  rw [← and_or_left]
  exact and_congr_right fun hmark => Text.infix_append_cons_iff (hc mark hmark)

/-- The status codes whose digits are a mark. -/
def passingCodes : List Nat := [429, 500, 502, 503]

theorem length_ofNat_of_code {code : Nat} (hlow : 100 ≤ code) (hhigh : code < 1000) :
    (Text.ofNat code).toList.length = 3 := by
  have hle : (Nat.toDigits 10 code).length ≤ 3 :=
    (Nat.length_toDigits_le_iff (by decide) (by decide)).mpr hhigh
  have hgt : ¬(Nat.toDigits 10 code).length ≤ 2 := fun h =>
    absurd ((Nat.length_toDigits_le_iff (by decide) (by decide)).mp h) (Nat.not_lt.mpr hlow)
  rw [Text.ofNat, String.toList_ofList]
  omega

/-- The digits of a status code hold a mark only if they are one. -/
theorem holdsMark_code_iff {code : Nat} (hlow : 100 ≤ code) (hhigh : code < 1000) :
    HoldsMark (Text.ofNat code).toList ↔ code ∈ passingCodes := by
  have hlength := length_ofNat_of_code hlow hhigh
  have hmarks : ∀ mark ∈ passingMarks,
      3 < mark.toList.length ∨ ∃ n ∈ passingCodes, mark = Text.ofNat n := by decide
  have hcodes : ∀ n ∈ passingCodes, Text.ofNat n ∈ passingMarks ∧ 100 ≤ n ∧ n < 1000 := by decide
  constructor
  · rintro ⟨mark, hmark, hinfix⟩
    rcases hmarks mark hmark with hlong | ⟨n, hn, rfl⟩
    -- a longer mark does not fit into three digits
    · have hle := hinfix.length_le
      omega
    · obtain ⟨-, hnlow, hnhigh⟩ := hcodes n hn
      have heq := hinfix.eq_of_length ((length_ofNat_of_code hnlow hnhigh).trans hlength.symm)
      rwa [← Text.ofNat_inj (String.toList_injective heq)]
  · intro hcode
    exact ⟨_, (hcodes code hcode).1, List.infix_refl _⟩

/-- No reason phrase holds a mark. -/
theorem not_holdsMark_reason (code : Nat) :
    ¬HoldsMark ((Web.reasons.lookup code).getD "<unknown status code>").toList := by
  have hreasons : ∀ r ∈ Web.reasons, ¬HoldsMark r.2.toList := by decide +kernel
  cases hlookup : Web.reasons.lookup code with
  | none => decide
  | some reason =>
    obtain ⟨older, newer, hsplit, -⟩ := List.lookup_eq_some_iff.mp hlookup
    refine hreasons (code, reason) ?_
    rw [hsplit]
    exact List.mem_append_right _ List.mem_cons_self

end Marks

/-! ## Failing answers -/

namespace Web.Reply

/-- What a failing answer of the model is reported as. -/
def failure (r : Reply) : Fault :=
  modelFault ("HTTP " ++ statusLine r.status ++ ": " ++ r.content)

theorem completionText_of_failing {r : Reply} (h : isSuccess r.status = false) :
    r.completionText = .error r.failure := by
  unfold completionText
  rw [if_neg (by rw [h]; decide)]
  rfl

/-- A failing answer counts as passing if its status is one of four or its body holds a mark. -/
def IsPassing (r : Reply) : Prop := r.status ∈ passingCodes ∨ HoldsMark r.content.toList

instance : DecidablePred IsPassing := fun _ => inferInstanceAs (Decidable (_ ∨ _))

theorem isPassing_failure_iff {r : Reply} (hlow : 100 ≤ r.status) (hhigh : r.status < 1000) :
    r.failure.isPassing = true ↔ r.IsPassing := by
  have hblank : ∀ mark ∈ passingMarks, ' ' ∉ mark.toList := by decide
  have hcolon : ∀ mark ∈ passingMarks, ':' ∉ mark.toList := by decide
  -- the parts of the message stand between characters that no mark has
  have hmessage : ("HTTP " ++ statusLine r.status ++ ": " ++ r.content).toList =
      "HTTP".toList ++ ' ' :: ((Text.ofNat r.status).toList ++ ' ' ::
        (((reasons.lookup r.status).getD "<unknown status code>").toList ++ ':' ::
          ([] ++ ' ' :: r.content.toList))) := by
    simp [statusLine]
  rw [failure, modelFault, isPassing_service_iff, hmessage, holdsMark_append_cons_iff hblank,
    holdsMark_append_cons_iff hblank, holdsMark_append_cons_iff hcolon,
    holdsMark_append_cons_iff hblank, holdsMark_code_iff hlow hhigh, IsPassing]
  have hstart : ¬HoldsMark "HTTP".toList := by decide
  have hgap : ¬HoldsMark [] := by decide
  simp only [hstart, hgap, not_holdsMark_reason, false_or]

end Web.Reply

/-! ## Repeated requests -/

/-- A way to reach services that also keeps what was posted, the latest last. -/
def Web.Transport.recording {σ : Type} (transport : Web.Transport σ) :
    Web.Transport (σ × List Web.Post) := fun post s =>
  ((transport post s.1).1, (transport post s.1).2, s.2 ++ [post])

namespace Generative

variable {σ : Type} {g : Generative σ} {p : RetryPolicy} {limit : Option Nat} {mode : Mode}
  {prompt : String} {left attempt elapsed after : Nat} {s s' : σ} {fault : Fault}

/-- A lasting failure ends the attempts. -/
theorem attempts_of_lasting
    (h : g.complete (limit.map (· - elapsed)) mode prompt s = (.settled (.error fault) after, s'))
    (hlasting : fault.isPassing = false) :
    g.attempts p limit mode prompt left attempt elapsed s =
      ⟨.settled (.error fault) (elapsed + after), [], s'⟩ := by
  unfold attempts
  rw [h]
  cases left with
  | zero => rfl
  | succ left => simp only [hlasting, Bool.false_eq_true, if_false]

/-- After a passing failure the request is repeated, if retries are left and there is time. -/
theorem attempts_of_passing
    (h : g.complete (limit.map (· - elapsed)) mode prompt s = (.settled (.error fault) after, s'))
    (hpassing : fault.isPassing = true)
    (htime : ∀ most, limit = some most → elapsed + after + p.backoff attempt ≤ most) :
    g.attempts p limit mode prompt (left + 1) attempt elapsed s =
      let later := g.attempts p limit mode prompt left (attempt + 1)
        (elapsed + after + p.backoff attempt) s'
      { later with waits := p.backoff attempt :: later.waits } := by
  have hintime : limit.any (· < elapsed + after + p.backoff attempt) = false := by
    cases limit with
    | none => rfl
    | some most => simpa using htime most rfl
  conv => lhs; unfold attempts
  rw [h]
  simp only [hpassing, hintime, Bool.false_eq_true, if_false, if_true]

/-- Attempts end with their first request or with the wait after it, or they go on after this wait
with one retry less. -/
theorem attempts_cases (g : Generative σ) (p : RetryPolicy) (limit : Option Nat) (mode : Mode)
    (prompt : String) (left attempt elapsed : Nat) (s : σ) :
    let all := g.attempts p limit mode prompt left attempt elapsed s
    let first := (g.complete (limit.map (· - elapsed)) mode prompt s).2
    (all.state = first ∧ (all.waits = [] ∨ left ≠ 0 ∧ all.waits = [p.backoff attempt])) ∨
      ∃ rest later, left = rest + 1 ∧
        let others := g.attempts p limit mode prompt rest (attempt + 1) later first
        all.state = others.state ∧ all.waits = p.backoff attempt :: others.waits := by
  dsimp only
  rw [attempts]
  split
  · next hcomplete => exact .inl ⟨by rw [hcomplete], .inl rfl⟩
  · next hcomplete => exact .inl ⟨by rw [hcomplete], .inl rfl⟩
  · next hcomplete =>
    rw [hcomplete]
    split
    · exact .inl ⟨rfl, .inl rfl⟩
    · next rest =>
      dsimp only
      split
      · split
        · exact .inl ⟨rfl, .inr ⟨Nat.succ_ne_zero rest, rfl⟩⟩
        · exact .inr ⟨rest, _, rfl, rfl, rfl⟩
      · exact .inl ⟨rfl, .inl rfl⟩

/-- If each request leaves one more `x`, then attempts leave one for each request made, and make no
more requests than there are retries left, and one. -/
theorem view_attempts {α : Type} (view : σ → List α) {x : α} (p : RetryPolicy)
    (limit : Option Nat) (h : ∀ limit s, view (g.complete limit mode prompt s).2 = view s ++ [x])
    (left attempt elapsed : Nat) (s : σ) :
    ∃ retries ≤ left, view (g.attempts p limit mode prompt left attempt elapsed s).state =
      view s ++ List.replicate (retries + 1) x := by
  induction left generalizing attempt elapsed s with
  | zero =>
    refine ⟨0, Nat.le_refl 0, ?_⟩
    rcases g.attempts_cases p limit mode prompt 0 attempt elapsed s with
      ⟨hstate, -⟩ | ⟨rest, -, hzero, -⟩
    · rw [hstate, h]
      rfl
    · cases hzero
  | succ left ih =>
    rcases g.attempts_cases p limit mode prompt (left + 1) attempt elapsed s with
      ⟨hstate, -⟩ | ⟨rest, later, hleft, hstate, -⟩
    · refine ⟨0, Nat.zero_le _, ?_⟩
      rw [hstate, h]
      rfl
    · cases hleft
      obtain ⟨retries, hretries, hview⟩ := ih (attempt + 1) later
        (g.complete (limit.map (· - elapsed)) mode prompt s).2
      refine ⟨retries + 1, Nat.succ_le_succ hretries, ?_⟩
      rw [hstate, hview, h, List.append_assoc, List.singleton_append, ← List.replicate_succ]

variable {transport : Web.Transport σ} {m : ModelSettings} {key : String} {reply : Web.Reply}

theorem sent_ofModel (transport : Web.Transport σ) (m : ModelSettings) (key : String) (mode : Mode)
    (prompt : String) (limit : Option Nat) (s : σ × List Web.Post) :
    ((ofModel transport.recording m key).complete limit mode prompt s).2.2 =
      s.2 ++ [m.post key mode prompt] := by
  unfold ofModel Web.Transport.recording
  dsimp only
  split
  · next hposted =>
    obtain ⟨-, rfl⟩ := Prod.mk.inj hposted
    rfl
  · next hposted =>
    obtain ⟨-, rfl⟩ := Prod.mk.inj hposted
    rfl

theorem complete_ofModel_of_failing (hreply : (transport (m.post key mode prompt) s).1 = some reply)
    (hfailing : Web.isSuccess reply.status = false) (limit : Option Nat) :
    (ofModel transport m key).complete limit mode prompt s =
      (.settled (.error reply.failure) 0, (transport (m.post key mode prompt) s).2) := by
  rcases hposted : transport (m.post key mode prompt) s with ⟨answer, s'⟩
  rw [hposted] at hreply
  obtain rfl : answer = some reply := hreply
  unfold ofModel
  dsimp only
  rw [hposted]
  dsimp only
  rw [Web.Reply.completionText_of_failing hfailing]
  rfl

/-- After a failing answer, with retries left and time for the wait, a request is repeated exactly if
the status of the answer is one of four codes or its body holds a mark; all requests are the same.
Otherwise the failure stands. -/
theorem repeated_iff_passing (transport : Web.Transport σ) (m : ModelSettings) (key : String)
    (p : RetryPolicy) (limit : Option Nat) (mode : Mode) (prompt : String)
    (left attempt elapsed : Nat) (s : σ) (sent : List Web.Post) {reply : Web.Reply}
    (hreply : (transport (m.post key mode prompt) s).1 = some reply)
    (hlow : 100 ≤ reply.status) (hhigh : reply.status < 1000)
    (hfailing : Web.isSuccess reply.status = false)
    (htime : ∀ most, limit = some most → elapsed + p.backoff attempt ≤ most) :
    let attempts := (ofModel transport.recording m key).attempts p limit mode prompt (left + 1)
      attempt elapsed (s, sent)
    ∃ retries, attempts.state.2 = sent ++ List.replicate (retries + 1) (m.post key mode prompt) ∧
      retries ≤ left + 1 ∧
      (0 < retries ↔ reply.status ∈ [429, 500, 502, 503] ∨ HoldsMark reply.content.toList) ∧
      (retries = 0 → attempts.waits = [] ∧
        attempts.ending = .settled (.error (modelFault
          ("HTTP " ++ Web.statusLine reply.status ++ ": " ++ reply.content))) elapsed) := by
  have hrecorded : (transport.recording (m.post key mode prompt) (s, sent)).1 = some reply := hreply
  have hcomplete := complete_ofModel_of_failing hrecorded hfailing (limit.map (· - elapsed))
  have hiff := Web.Reply.isPassing_failure_iff hlow hhigh
  by_cases hpassing : reply.IsPassing
  · obtain ⟨retries, hretries, hsent⟩ := view_attempts Prod.snd p limit
      (sent_ofModel transport m key mode prompt) left (attempt + 1)
      (elapsed + 0 + p.backoff attempt) (transport.recording (m.post key mode prompt) (s, sent)).2
    dsimp only
    rw [attempts_of_passing hcomplete (hiff.mpr hpassing) htime]
    refine ⟨retries + 1, ?_, Nat.succ_le_succ hretries,
      iff_of_true (Nat.succ_pos _) hpassing, fun hzero => absurd hzero (Nat.succ_ne_zero _)⟩
    have hfirst : (transport.recording (m.post key mode prompt) (s, sent)).2.2 =
        sent ++ [m.post key mode prompt] := rfl
    dsimp only
    rw [hsent, hfirst, List.append_assoc, List.singleton_append, ← List.replicate_succ]
  · have hlasting : reply.failure.isPassing = false := by
      rw [← Bool.not_eq_true, hiff]
      exact hpassing
    dsimp only
    rw [attempts_of_lasting hcomplete hlasting]
    exact ⟨0, rfl, Nat.zero_le _, iff_of_false (Nat.lt_irrefl 0) hpassing, fun _ => ⟨rfl, rfl⟩⟩

end Generative

/-! ## Two services -/

/-- A service that gives its answers in turn and counts the requests. -/
def Web.Transport.inTurn (replies : List Web.Reply) : Web.Transport Nat := fun _ n =>
  (replies[n]?, n + 1)

/-- A model with short settings. -/
def plainModel : ModelSettings where
  provider := "gemini"
  modelId := "plain"
  apiKey := some "key"
  baseUrl := none
  maxTokens := 1
  temperature := 0
  retry := none

/-- A client of the model that repeats requests twice at most. -/
def persistentClient (replies : List Web.Reply) : Generative Nat :=
  (Generative.ofModel (.inTurn replies) plainModel "key").retrying ⟨2, 0, 0⟩

namespace Generative

/-- The client asks a proxy that has timed out again, for what the body says. -/
theorem proxyTimeout_is_repeated :
    let proxy : Web.Transport Nat := .inTurn [⟨504, "upstream timeout"⟩, ⟨503, ""⟩, ⟨400, ""⟩]
    let attempts := (ofModel proxy.recording plainModel "key").attempts ⟨2, 0, 0⟩ none .text "Hi" 2
      0 0 (0, [])
    ∃ retries, attempts.state.2 = List.replicate (retries + 1) (plainModel.post "key" .text "Hi") ∧
      0 < retries ∧ retries ≤ 2 := by
  intro proxy attempts
  have hreply : (proxy (plainModel.post "key" .text "Hi") 0).1 = some ⟨504, "upstream timeout"⟩ :=
    rfl
  obtain ⟨retries, hsent, hretries, hpassing, -⟩ :=
    repeated_iff_passing proxy plainModel "key" ⟨2, 0, 0⟩ none .text "Hi" 1 0 0 0 [] hreply
      (by decide) (by decide) rfl nofun
  exact ⟨retries, hsent, hpassing.mpr (.inr (by decide)), hretries⟩

/-- A timeout of a gateway is not asked for again although its status is one of the server's, and a
bad request is although its status is not: the body decides. -/
theorem status_does_not_decide :
    (persistentClient [⟨504, ""⟩, ⟨400, ""⟩]).complete none .text "Hi" 0 =
      (.settled (.error (modelFault "HTTP 504 Gateway Timeout: ")) 0, 1) ∧
    (persistentClient [⟨400, "upstream 503"⟩, ⟨400, ""⟩]).complete none .text "Hi" 0 =
      (.settled (.error (modelFault "HTTP 400 Bad Request: ")) 0, 2) := by
  exact ⟨rfl, rfl⟩

end Generative

end TriageFlow
