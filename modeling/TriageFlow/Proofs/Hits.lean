import TriageFlow.Proofs.Deposits
import TriageFlow.Proofs.ScoreOrder

/-!
What a search finds. A hit is a document with its score (`Store.exists_of_mem_best`), and a document
is passed over only if its score is at most the threshold (`Store.mem_best`). Of a score that is no
number this cannot be said, so its document is found whatever the threshold; only where every score
is a number do all hits score above the threshold (`Store.hits_above_iff_numbers`).
-/

namespace TriageFlow

namespace Store

variable {documents : List Document} {query : Vector32} {threshold : Float32} {limit : Nat}

/-! ## Ranked hits -/

theorem place_perm (h : Hit) (hits : List Hit) : (place h hits).Perm (h :: hits) := by
  induction hits with
  | nil => exact .refl _
  | cons k rest ih =>
    unfold place
    split
    · exact .refl _
    · exact (ih.cons k).trans (.swap h k rest)

/-- Ranking neither loses nor adds a hit. -/
theorem rank_perm (hits : List Hit) : (rank hits).Perm hits := by
  induction hits with
  | nil => exact .refl _
  | cons h rest ih => exact (place_perm h (rank rest)).trans (ih.cons h)

/-- A document is passed over if it scores at most the threshold. -/
theorem isBelow_score_iff (d : Document) :
    isBelow threshold (score query d) = true ↔ similarity query d.vector ≤ threshold :=
  decide_eq_true_iff

/-- A hit is a document that is not passed over, with its score. -/
theorem exists_of_mem_best {hit : Hit} (h : hit ∈ best documents query threshold limit) :
    ∃ d ∈ documents, score query d = hit ∧ ¬similarity query d.vector ≤ threshold := by
  have hranked := (rank_perm _).mem_iff.mp (List.mem_of_mem_take h)
  obtain ⟨hscored, habove⟩ := List.mem_filter.mp hranked
  obtain ⟨d, hd, rfl⟩ := List.mem_map.mp hscored
  refine ⟨d, hd, rfl, fun hle => ?_⟩
  rw [(isBelow_score_iff d).mpr hle] at habove
  cases habove

/-- Where the limit cuts nothing off, every document that is not passed over is a hit. -/
theorem mem_best {d : Document} (hlimit : documents.length ≤ limit) (hd : d ∈ documents)
    (habove : ¬similarity query d.vector ≤ threshold) :
    score query d ∈ best documents query threshold limit := by
  have hlength : (rank ((documents.map (score query)).filter
      fun h => !isBelow threshold h)).length ≤ limit := by
    rw [(rank_perm _).length_eq]
    exact (List.length_filter_le _ _).trans (by rwa [List.length_map])
  rw [best, List.take_of_length_le hlength, (rank_perm _).mem_iff, List.mem_filter]
  refine ⟨List.mem_map_of_mem hd, ?_⟩
  rw [Bool.not_eq_true', Bool.eq_false_iff, Ne, isBelow_score_iff]
  exact habove

/-! ## Inserts -/

/-- An empty store after some inserts. -/
def ofDeposits (deposits : List Deposit) : Store :=
  deposits.foldl (fun s d => s.add d.content d.metadata.compact d.bits) .empty

theorem ofDeposits_holds (deposits : List Deposit) : (ofDeposits deposits).Holds deposits := by
  induction deposits using List.reverseRecOn with
  | nil => exact holds_empty
  | append_singleton deposits d ih =>
    unfold ofDeposits at ih ⊢
    rw [List.foldl_append]
    exact ih.add d

theorem search_ofDeposits (deposits : List Deposit) :
    (ofDeposits deposits).search query threshold limit =
      best (deposits.map Deposit.document) query threshold limit := by
  rw [search, (ofDeposits_holds deposits).documents_eq]

/-- A hit was inserted, and scores above the threshold or cannot be compared with it. -/
theorem exists_of_mem_search {deposits : List Deposit} {hit : Hit}
    (h : hit ∈ (ofDeposits deposits).search query threshold limit) :
    ∃ d ∈ deposits, score query d.document = hit ∧
      (threshold < hit.similarity ∨ hit.similarity.isNaN = true ∨ threshold.isNaN = true) := by
  rw [search_ofDeposits] at h
  obtain ⟨x, hx, rfl, habove⟩ := exists_of_mem_best h
  obtain ⟨d, hd, rfl⟩ := List.mem_map.mp hx
  exact ⟨d, hd, rfl, Score.not_le_iff.mp habove⟩

/-- What cannot be compared with the threshold is found. -/
theorem mem_search_of_isNaN {deposits : List Deposit} {d : Deposit}
    (hlimit : deposits.length ≤ limit) (hd : d ∈ deposits)
    (hnan : (similarity query (.ofBits d.bits)).isNaN = true ∨ threshold.isNaN = true) :
    score query d.document ∈ (ofDeposits deposits).search query threshold limit := by
  rw [search_ofDeposits]
  refine mem_best (by rwa [List.length_map]) (List.mem_map_of_mem hd) ?_
  exact Score.not_le_iff.mpr (.inr hnan)

/-- Every hit is a document with its score, which is above the threshold unless one of the two is no
number. A document with such a score is a hit whatever the threshold, if the limit leaves room for
it; so all hits score above the threshold, whatever the limit, exactly where the threshold and the
scores of all documents are numbers. -/
theorem hits_above_iff_numbers (deposits : List Deposit) (query : Vector32) (threshold : Float32) :
    (∀ limit, ∀ hit ∈ (ofDeposits deposits).search query threshold limit,
      (∃ d ∈ deposits, score query d.document = hit) ∧
      (threshold < hit.similarity ∨ hit.similarity.isNaN = true ∨ threshold.isNaN = true)) ∧
    (∀ limit, deposits.length ≤ limit → ∀ d ∈ deposits,
      (similarity query (.ofBits d.bits)).isNaN = true →
        score query d.document ∈ (ofDeposits deposits).search query threshold limit) ∧
    ((∀ limit, ∀ hit ∈ (ofDeposits deposits).search query threshold limit,
        threshold < hit.similarity) ↔
      ∀ d ∈ deposits, (similarity query (.ofBits d.bits)).isNaN = false ∧
        threshold.isNaN = false) := by
  refine ⟨fun limit hit h => ?_,
    fun limit hlimit d hd hnan => mem_search_of_isNaN hlimit hd (.inl hnan), ?_⟩
  · obtain ⟨d, hd, hscore, hor⟩ := exists_of_mem_search h
    exact ⟨⟨d, hd, hscore⟩, hor⟩
  constructor
  · intro h d hd
    rw [← Bool.not_eq_true, ← Bool.not_eq_true, ← not_or]
    intro hnan
    have habove := h deposits.length _ (mem_search_of_isNaN (Nat.le_refl _) hd hnan)
    exact Score.not_lt_of_isNaN hnan.symm habove
  · intro h limit hit hhit
    obtain ⟨d, hd, rfl, habove | hnan | hnan⟩ := exists_of_mem_search hhit
    · exact habove
    · exact absurd hnan (Bool.eq_false_iff.mp (h d hd).1)
    · exact absurd hnan (Bool.eq_false_iff.mp (h d hd).2)

/-- A note whose only component is so great that its square is infinite. -/
def hugeNote : Deposit := ⟨"huge", .null, [0x7149F2CA]⟩

/-- Two notes at a right angle, and one whose vector has a component less. -/
def smallNotes : List Deposit :=
  [⟨"north", .null, [0x3F800000, 0]⟩, ⟨"east", .null, [0, 0x3F800000]⟩,
    ⟨"short", .null, [0x3F800000]⟩]

/-- The huge note is found for itself, although its score is no number. -/
theorem hugeNote_is_found :
    let hits := (ofDeposits [hugeNote]).search (.ofBits hugeNote.bits) 0.5 10
    hits = [score (.ofBits hugeNote.bits) hugeNote.document] ∧
    hits.map (fun hit => hit.similarity.isNaN) = [true] ∧
    ¬∀ hit ∈ hits, 0.5 < hit.similarity := by
  intro hits
  have hhits : hits = [score (.ofBits hugeNote.bits) hugeNote.document] := rfl
  have hnan : (score (.ofBits hugeNote.bits) hugeNote.document).similarity.isNaN = true := by
    decide +kernel
  rw [hhits]
  refine ⟨rfl, congrArg (fun x => [x]) hnan, fun h => ?_⟩
  exact Score.not_lt_of_isNaN (.inr hnan) (h _ List.mem_cons_self)

/-- The small notes have scores that are numbers, so those that are found score above the
threshold; the huge note is found by itself even above one. -/
theorem smallNotes_score_above :
    (∀ d ∈ smallNotes, (similarity [1, 0] (.ofBits d.bits)).isNaN = false ∧
      (0.5 : Float32).isNaN = false) ∧
    (∀ limit, ∀ hit ∈ (ofDeposits smallNotes).search [1, 0] 0.5 limit, 0.5 < hit.similarity) ∧
    score (.ofBits hugeNote.bits) hugeNote.document ∈
      (ofDeposits [hugeNote]).search (.ofBits hugeNote.bits) 2 1 := by
  have hnumbers : ∀ d ∈ smallNotes, (similarity [1, 0] (.ofBits d.bits)).isNaN = false ∧
      (0.5 : Float32).isNaN = false := by
    decide +kernel
  obtain ⟨-, -, habove⟩ := hits_above_iff_numbers smallNotes [1, 0] 0.5
  obtain ⟨-, hfound, -⟩ := hits_above_iff_numbers [hugeNote] (.ofBits hugeNote.bits) 2
  exact ⟨hnumbers, habove.mpr hnumbers,
    hfound 1 (Nat.le_refl 1) hugeNote List.mem_cons_self (by decide +kernel)⟩

end Store

end TriageFlow
