import TriageFlow.Engine.Execution
import TriageFlow.Proofs.Fencing
import TriageFlow.Proofs.Roundtrip

/-!
Structured answers that are sent as text. What is read from the compact text of a value is the value
without the fences in its strings, its numbers read again (`readModelOutput_compact`). So a value
comes through exactly if none of its strings holds a fence and each of its floats is the one that
its text stands for, and then an analysis node does with the text what it does with the value.
-/

namespace TriageFlow

open Json (Value Number nestingLimit)

/-! ## Values -/

section Values

variable {v : Value}

/-- What is read from the text of a value. -/
theorem readModelOutput_compact (hnumbers : ∀ n ∈ v.numbers, n.IsStored)
    (hdepth : v.height ≤ nestingLimit) :
    readModelOutput v.compact = (v.mapStrings unfenced).reread.elim
      (.error (.malformedOutput ("<json>: " ++ String.ofList (v.write.take 120)))) .ok := by
  have hread : Value.read? (v.mapStrings unfenced).write = (v.mapStrings unfenced).reread :=
    Value.read?_write (by rwa [Value.numbers_mapStrings]) (Value.height_mapStrings_le hdepth)
  rw [readModelOutput, Value.compact, String.toList_ofList, withoutFences_write, Value.trim_write,
    hread]
  cases (v.mapStrings unfenced).reread <;> rfl

/-- A value has less text without fences, unless it has none. -/
theorem strings_unfenced_of_textSize (h : v.textSize ≤ (v.mapStrings unfenced).textSize) :
    ∀ s ∈ v.strings, unfenced s = s := by
  intro s hs
  refine unfenced_eq_self_of_length (Nat.le_of_not_lt fun hlt => ?_)
  have hless := List.sum_lt_sum (fun s => (unfenced s).length) String.length
    (fun s _ => length_unfenced_le s) ⟨s, hs, hlt⟩
  rw [Value.textSize, Value.textSize, Value.strings_mapStrings, List.map_map] at h
  exact absurd hless (Nat.not_lt.mpr h)

/-- A value that comes through as text: none of its strings and keys holds a fence, and each of its
floats is the one that its text stands for. -/
structure Json.Value.IsWireSafe (v : Value) : Prop where
  strings : ∀ s ∈ v.strings, ¬fence <:+: s.toList
  floats : ∀ x, Number.real x ∈ v.numbers → (Number.real x).reread = some (.real x)

/-- Exactly the values that come through are read from their text. -/
theorem readModelOutput_compact_iff (h : v.IsStored) (hdepth : v.height ≤ nestingLimit) :
    readModelOutput v.compact = .ok v ↔ v.IsWireSafe := by
  have hread : readModelOutput v.compact = .ok v ↔ (v.mapStrings unfenced).reread = some v := by
    rw [readModelOutput_compact h.numbers hdepth]
    cases (v.mapStrings unfenced).reread <;> simp
  have hnumbers : (∀ n ∈ v.numbers, n.reread = some n) ↔
      ∀ x, Number.real x ∈ v.numbers → (Number.real x).reread = some (.real x) := by
    refine ⟨fun hall x hx => hall _ hx, fun hreal n hn => ?_⟩
    cases n with
    | whole n => exact Number.reread_whole (h.numbers _ hn)
    | real x => exact hreal x hn
  rw [hread]
  constructor
  · intro hself
    have hfixed := strings_unfenced_of_textSize (Value.textSize_reread_le hself)
    rw [Value.mapStrings_of_fixed hfixed] at hself
    exact ⟨fun s hs => unfenced_eq_self_iff.mp (hfixed s hs),
      hnumbers.mp ((Value.reread_eq_self_iff h).mp hself)⟩
  · intro hsafe
    rw [Value.mapStrings_of_fixed fun s hs => unfenced_eq_self_iff.mpr (hsafe.strings s hs)]
    exact (Value.reread_eq_self_iff h).mpr (hnumbers.mpr hsafe.floats)

end Values

/-! ## Analysis nodes -/

section Analyses

variable {σ : Type}

/-- An ending whose structured answer is sent as text. -/
def Ending.asText : Ending Completion → Ending Completion
  | settled (.ok completion) after => settled (.ok (.text completion.toText)) after
  | ending => ending

/-- A gateway that sends its structured answers as text. -/
def Generative.asText (g : Generative σ) : Generative σ where
  name := g.name
  complete limit mode prompt s :=
    ((g.complete limit mode prompt s).1.asText, (g.complete limit mode prompt s).2)

/-- An engine with another gateway. -/
def Engine.withGenerative (e : Engine σ) (g : Generative σ) : Engine σ :=
  { e with collaborators := { e.collaborators with generative := some g } }

/-- An analysis node does with the text of a value that comes through what it does with the value
itself. -/
theorem Engine.analyze_asText {e : Engine σ} {g : Generative σ} {node prompt : String} {c : Context}
    {s : σ} {v : Value} {after : Nat} (hv : readModelOutput v.compact = .ok v)
    (hanswer : (g.complete (some e.timeout) .json (Template.interpolate prompt c) s).1 =
      .settled (.ok (.json v)) after) :
    (e.withGenerative g.asText).analyze node prompt c s =
      (e.withGenerative g).analyze node prompt c s := by
  have hanalysis : analysisOf (.text v.compact) = analysisOf (.json v) := by
    rw [analysisOf, analysisOf, hv]
  simp only [analyze, withGenerative, Generative.asText]
  rw [hanswer]
  simp only [Ending.asText, Ending.within, Completion.toText]
  by_cases hafter : after ≤ e.timeout
  · simp only [if_pos hafter, hanalysis]
  · simp only [if_neg hafter]

/-- Of the values that can be held and nest no deeper than the reader goes, those are read from
their compact text whose strings hold no fence and whose floats are what their texts stand for. For
these an analysis node does the same whether the gateway sends the value or its text. -/
theorem wire_safe_values_come_through {v : Value} (h : v.IsStored)
    (hdepth : v.height ≤ nestingLimit) :
    (readModelOutput v.compact = .ok v ↔ v.IsWireSafe) ∧
    (v.IsWireSafe → ∀ (e : Engine σ) (g : Generative σ) (node prompt : String) (c : Context) (s : σ)
      (after : Nat),
      (g.complete (some e.timeout) .json (Template.interpolate prompt c) s).1 =
        .settled (.ok (.json v)) after →
      (e.withGenerative g.asText).analyze node prompt c s =
        (e.withGenerative g).analyze node prompt c s) := by
  have hiff := readModelOutput_compact_iff h hdepth
  exact ⟨hiff, fun hsafe e g node prompt c s after hanswer =>
    Engine.analyze_asText (hiff.mpr hsafe) hanswer⟩

/-- An analysis that quotes commands, with fewer backticks than a fence has. -/
def commandAdvice : Value :=
  .object [("intent", .string "run `ls` or ``pwd``\n"),
    ("steps", .array [.nat 5000000000, .number (.whole (-3)), .null])]

/-- A gateway that answers everything at once with one value. -/
def Generative.answering (v : Value) : Generative Unit where
  name := "steady"
  complete _ _ _ s := (.settled (.ok (.json v)) 0, s)

/-- An engine without nodes that waits for no answer. -/
def consultant : Engine Unit where
  definition := ⟨"consultant", []⟩
  collaborators := .none
  transforms := []
  replies := .standard
  maxSteps := 1
  timeout := 0
  now := .standing ⟨0⟩

theorem commandAdvice_isStored : commandAdvice.IsStored := by
  have hwhole {n : Int} (h : (Number.whole n).IsStored) : (Value.number (.whole n)).IsStored :=
    .number h
  refine .object (by unfold Json.Fields.Ascending; decide) ?_
  simp only [List.forall_mem_cons, List.not_mem_nil, false_implies, implies_true, and_true]
  refine ⟨.string _, .array ?_⟩
  simp only [List.forall_mem_cons, List.not_mem_nil, false_implies, implies_true, and_true]
  exact ⟨hwhole ⟨by decide, by decide⟩, hwhole ⟨by decide, by decide⟩, .null⟩

theorem commandAdvice_isWireSafe : commandAdvice.IsWireSafe := by
  have hunfenced : ∀ s ∈ commandAdvice.strings, unfenced s = s := by decide
  have hnumbers : commandAdvice.numbers = [.whole 5000000000, .whole (-3)] := rfl
  refine ⟨fun s hs => unfenced_eq_self_iff.mp (hunfenced s hs), fun x hx => ?_⟩
  rw [hnumbers] at hx
  simp at hx

/-- The advice is read from its text, and an analysis of it comes out alike. -/
theorem commandAdvice_comes_through :
    commandAdvice.IsStored ∧ commandAdvice.height ≤ nestingLimit ∧ commandAdvice.IsWireSafe ∧
    readModelOutput commandAdvice.compact = .ok commandAdvice ∧
    (consultant.withGenerative (Generative.answering commandAdvice).asText).analyze "ask" "how?"
        (.start .null "trace") () =
      (consultant.withGenerative (Generative.answering commandAdvice)).analyze "ask" "how?"
        (.start .null "trace") () := by
  have hdepth : commandAdvice.height ≤ nestingLimit := by decide
  obtain ⟨hiff, hanalysis⟩ := wire_safe_values_come_through commandAdvice_isStored hdepth
  exact ⟨commandAdvice_isStored, hdepth, commandAdvice_isWireSafe,
    hiff.mpr commandAdvice_isWireSafe,
    hanalysis commandAdvice_isWireSafe consultant (.answering commandAdvice) "ask" "how?" _ () 0
      rfl⟩

/-- A note that shows a command in a fence of its own. -/
def fencedNote : Value := .object [("note", .string "run ```ls``` first")]

/-- The note comes back without its fence. -/
theorem fencedNote_loses_fence :
    fencedNote.IsStored ∧ fencedNote.height ≤ nestingLimit ∧
    readModelOutput fencedNote.compact = .ok (.object [("note", .string "run ls first")]) ∧
    readModelOutput fencedNote.compact ≠ .ok fencedNote := by
  have hread : readModelOutput fencedNote.compact =
      .ok (.object [("note", .string "run ls first")]) := rfl
  refine ⟨.object (List.pairwise_singleton ..) ?_, by decide, hread, ?_⟩
  · rintro field hfield
    rw [List.mem_singleton.mp hfield]
    exact .string _
  · rw [hread]
    simp [fencedNote]

end Analyses

end TriageFlow
