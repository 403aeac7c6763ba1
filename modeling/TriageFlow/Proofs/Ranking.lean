import TriageFlow.Proofs.Hits

/-!
The order of what a search finds. The documents that score above the threshold have one order, the
best first and of equal ones the one that came first (`Ranking.unique`), and a search takes from it
as many as the limit allows (`Store.search_takes_best`). To see this, each document is kept with its
position. Positions differ, so that documents ranked by score and position have no equals; they come
out as the search ranks them by score alone (`Store.rank_map`), as its insertion sort is stable.
-/

namespace TriageFlow

open Json (Value)

/-! ## Rankings -/

/-- The first of two documents scores higher, or as high as the second and came before it. -/
def Outranks (scores : List Float32) (i j : Nat) : Prop :=
  ∃ x y, scores[i]? = some x ∧ scores[j]? = some y ∧ (y < x ∨ (x == y) = true ∧ i < j)

/-- The positions of the documents that score above a threshold, every one before those that it
outranks. -/
structure Ranking (scores : List Float32) (threshold : Float32) (order : List Nat) : Prop where
  mem_iff : ∀ i, i ∈ order ↔ ∃ x, scores[i]? = some x ∧ threshold < x
  ordered : order.Pairwise (Outranks scores)

section Rankings

variable {scores : List Float32} {threshold : Float32} {i j : Nat}

theorem Outranks.not_lt (h : Outranks scores i j) {x y : Float32} (hx : scores[i]? = some x)
    (hy : scores[j]? = some y) : ¬x < y := by
  obtain ⟨x', y', hx', hy', hor⟩ := h
  obtain rfl := Option.some.inj (hx.symm.trans hx')
  obtain rfl := Option.some.inj (hy.symm.trans hy')
  obtain hlt | ⟨heq, -⟩ := hor
  · exact Score.lt_asymm hlt
  · exact Score.not_lt_of_beq heq

theorem Outranks.asymm (h : Outranks scores i j) : ¬Outranks scores j i := by
  rintro ⟨y, x, hy, hx, hor⟩
  obtain hlt | ⟨hback, hji⟩ := hor
  · exact h.not_lt hx hy hlt
  · obtain ⟨x', y', hx', hy', hlt | ⟨-, hij⟩⟩ := h
    · obtain rfl := Option.some.inj (hx.symm.trans hx')
      obtain rfl := Option.some.inj (hy.symm.trans hy')
      exact Score.not_lt_of_beq hback hlt
    · omega

theorem Ranking.nodup {order : List Nat} (h : Ranking scores threshold order) : order.Nodup :=
  h.ordered.imp fun hij heq => by
    subst heq
    exact hij.asymm hij

/-- There is one order at most. -/
theorem Ranking.unique {order order' : List Nat} (h : Ranking scores threshold order)
    (h' : Ranking scores threshold order') : order' = order := by
  refine List.Perm.eq_of_pairwise (fun i j _ _ hij hji => absurd hji hij.asymm) h'.ordered h.ordered
    ((List.perm_ext_iff_of_nodup h'.nodup h.nodup).mpr fun i => ?_)
  rw [h'.mem_iff, h.mem_iff]

/-- Whatever is not among the first documents of the order does not score higher than they do. -/
theorem Ranking.not_lt_of_taken {order : List Nat} (h : Ranking scores threshold order)
    (hthreshold : threshold.isNaN = false) (hscores : ∀ x ∈ scores, x.isNaN = false) {limit : Nat}
    (hi : i ∈ order.take limit) (hj : j ∉ order.take limit) {x y : Float32}
    (hx : scores[i]? = some x) (hy : scores[j]? = some y) : ¬x < y := by
  by_cases hrest : j ∈ order
  · -- a document that is cut off stands behind those that are taken
    rw [← List.take_append_drop limit order, List.mem_append] at hrest
    have hordered := h.ordered
    rw [← List.take_append_drop limit order, List.pairwise_append] at hordered
    exact (hordered.2.2 i hi j (hrest.resolve_left hj)).not_lt hx hy
  · -- and one that is not in the order does not even score above the threshold
    obtain ⟨x', hx', habove⟩ := (h.mem_iff i).mp (List.mem_of_mem_take hi)
    obtain rfl := Option.some.inj (hx.symm.trans hx')
    have hbelow : ¬threshold < y := fun hy' => hrest ((h.mem_iff j).mpr ⟨y, hy, hy'⟩)
    have hxn := hscores x (List.mem_of_getElem? hx)
    have hyn := hscores y (List.mem_of_getElem? hy)
    rw [Score.lt_iff hthreshold hyn] at hbelow
    rw [Score.lt_iff hthreshold hxn] at habove
    rw [Score.lt_iff hxn hyn]
    exact not_lt.mpr ((not_lt.mp hbelow).trans habove.le)

end Rankings

/-- What is found of a document: its own content, its score, and its own metadata if their text can
be read. -/
structure Hit.IsOf (query : Vector32) (d : Document) (hit : Hit) : Prop where
  content : hit.content = d.content
  similarity : hit.similarity = TriageFlow.similarity query d.vector
  readable : ∀ v, Value.ofText? d.metadata = some v → hit.metadata = v
  unreadable : Value.ofText? d.metadata = none → hit.metadata = .null

namespace Store

/-! ## Documents with their positions -/

/-- A document with its position. -/
abbrev Placed := Document × Nat

variable {query : Vector32}

/-- The hit of a document. -/
def hitOf (query : Vector32) (p : Placed) : Hit := score query p.1

theorem isOf_score (query : Vector32) (d : Document) : (score query d).IsOf query d where
  content := rfl
  similarity := rfl
  readable v hv := by rw [score, hv]; rfl
  unreadable hv := by rw [score, hv]; rfl

/-- What a document is ranked by: its score, the highest first, and its position. -/
def rankKey (query : Vector32) (p : Placed) : (ℤ ×ₗ ℤ ×ₗ ℤ)ᵒᵈ ×ₗ ℕ :=
  toLex (OrderDual.toDual (Score.place (hitOf query p).similarity), p.2)

/-- A document may stand before another one by score and position. -/
def ByKey (query : Vector32) (p q : Placed) : Prop := rankKey query p ≤ rankKey query q

instance (query : Vector32) : DecidableRel (ByKey query) :=
  fun _ _ => inferInstanceAs (Decidable (_ ≤ _))

instance (query : Vector32) : Std.Total (ByKey query) := ⟨fun _ _ => le_total _ _⟩

instance (query : Vector32) : IsTrans Placed (ByKey query) := ⟨fun _ _ _ => le_trans⟩

/-- Before a document that came later, a document may stand by its score as by its key. -/
theorem mayPrecede_hitOf_iff {p q : Placed} (hp : (hitOf query p).similarity.isNaN = false)
    (hq : (hitOf query q).similarity.isNaN = false) (hlt : p.2 < q.2) :
    mayPrecede (hitOf query p) (hitOf query q) = true ↔ ByKey query p q := by
  rw [mayPrecede, Bool.not_eq_true', decide_eq_false_iff_not, Score.lt_iff hp hq, not_lt, ByKey,
    rankKey, rankKey, Prod.Lex.toLex_le_toLex, OrderDual.toDual_lt_toDual, OrderDual.toDual_inj,
    le_iff_lt_or_eq]
  simp only [hlt.le, and_true, eq_comm]

theorem place_map {p : Placed} {ps : List Placed}
    (h : ∀ q ∈ ps, mayPrecede (hitOf query p) (hitOf query q) = true ↔ ByKey query p q) :
    place (hitOf query p) (ps.map (hitOf query)) =
      (ps.orderedInsert (ByKey query) p).map (hitOf query) := by
  induction ps with
  | nil => rfl
  | cons q ps ih =>
    rw [List.map_cons, place, List.orderedInsert_cons, apply_ite (List.map (hitOf query))]
    refine if_congr (h q List.mem_cons_self) rfl ?_
    rw [ih fun k hk => h k (List.mem_cons_of_mem q hk)]
    rfl

/-- Ranking by score alone keeps documents of one score in their order. -/
theorem rank_map {ps : List Placed} (hascending : ps.Pairwise fun p q => p.2 < q.2)
    (hnumbers : ∀ p ∈ ps, (hitOf query p).similarity.isNaN = false) :
    rank (ps.map (hitOf query)) = (ps.insertionSort (ByKey query)).map (hitOf query) := by
  induction ps with
  | nil => rfl
  | cons p ps ih =>
    obtain ⟨hfirst, hrest⟩ := List.pairwise_cons.mp hascending
    obtain ⟨hp, hps⟩ := List.forall_mem_cons.mp hnumbers
    rw [List.map_cons, rank, List.foldr_cons]
    refine (congrArg _ (ih hrest hps)).trans ((place_map fun q hq => ?_).trans ?_)
    · have hq' := (List.mem_insertionSort (ByKey query)).mp hq
      exact mayPrecede_hitOf_iff hp (hps q hq') (hfirst q hq')
    · rfl

/-! ## Searches -/

variable {s : Store} {threshold : Float32}

/-- The scores of the documents of a store. -/
def scores (s : Store) (query : Vector32) : List Float32 :=
  s.documents.map fun d => similarity query d.vector

/-- The documents of a store that are not passed over, with their positions. -/
def kept (s : Store) (query : Vector32) (threshold : Float32) : List Placed :=
  s.documents.zipIdx.filter fun p => !isBelow threshold (hitOf query p)

/-- The documents that are not passed over, in the order of a search. -/
def ranked (s : Store) (query : Vector32) (threshold : Float32) : List Placed :=
  (s.kept query threshold).insertionSort (ByKey query)

theorem mem_kept_iff {p : Placed} : p ∈ s.kept query threshold ↔
    s.documents[p.2]? = some p.1 ∧ ¬(hitOf query p).similarity ≤ threshold := by
  rw [kept, List.mem_filter, List.mem_zipIdx_iff_getElem?, Bool.not_eq_true', Bool.eq_false_iff, Ne]
  exact and_congr_right fun _ => not_congr (isBelow_score_iff p.1)

theorem kept_ascending (s : Store) : (s.kept query threshold).Pairwise fun p q => p.2 < q.2 := by
  refine List.Pairwise.filter _ (List.pairwise_map.mp ?_)
  rw [List.zipIdx_map_snd]
  exact List.pairwise_lt_range'

theorem search_eq_take_ranked
    (hnumbers : ∀ d ∈ s.documents, (similarity query d.vector).isNaN = false) (limit : Nat) :
    s.search query threshold limit =
      ((s.ranked query threshold).take limit).map (hitOf query) := by
  have hdocuments : s.documents.map (score query) = s.documents.zipIdx.map (hitOf query) := by
    conv => lhs; rw [← List.zipIdx_map_fst 0 s.documents, List.map_map]
    rfl
  have hkept : ∀ p ∈ s.kept query threshold, (hitOf query p).similarity.isNaN = false :=
    fun p hp => hnumbers p.1 (List.mem_of_getElem? (mem_kept_iff.mp hp).1)
  rw [search, best, hdocuments, List.filter_map, List.map_take, ranked,
    ← rank_map s.kept_ascending hkept]
  rfl

/-- What a search finds for every limit, told by an order of the documents above the threshold. -/
structure TakesBest (s : Store) (query : Vector32) (threshold : Float32) (order : List Nat) :
    Prop where
  /-- The order goes by score, and by position where scores are equal; there is no other such. -/
  ranking : Ranking (s.scores query) threshold order
  unique : ∀ order', Ranking (s.scores query) threshold order' → order' = order
  /-- Every document above the threshold stands in it, and stands in it once. -/
  nodup : order.Nodup
  length : order.length = (s.scores query).countP fun x => decide (threshold < x)
  /-- The hits are those of its first documents, each with what belongs to this document. -/
  hits : ∀ limit, List.Forall₂ (fun i hit => ∃ d, s.documents[i]? = some d ∧ hit.IsOf query d)
    (order.take limit) (s.search query threshold limit)
  count : ∀ limit, (s.search query threshold limit).length = min limit order.length
  /-- No other document of the store scores higher than one of them. -/
  none_higher : ∀ limit, ∀ i ∈ order.take limit, ∀ j, j ∉ order.take limit →
    ∀ x y, (s.scores query)[i]? = some x → (s.scores query)[j]? = some y → ¬x < y
  /-- A greater limit only adds hits behind. -/
  grows : ∀ limit more, limit ≤ more →
    s.search query threshold limit <+: s.search query threshold more

theorem getElem?_scores {i : Nat} {x : Float32} : (s.scores query)[i]? = some x ↔
    ∃ d, s.documents[i]? = some d ∧ similarity query d.vector = x := by
  rw [scores, List.getElem?_map, Option.map_eq_some_iff]

/-- A document that is not passed over scores above the threshold, where both are numbers. -/
theorem not_isBelow_iff (hthreshold : threshold.isNaN = false)
    (hnumbers : ∀ d ∈ s.documents, (similarity query d.vector).isNaN = false) {p : Placed}
    (hp : s.documents[p.2]? = some p.1) :
    ¬(hitOf query p).similarity ≤ threshold ↔ threshold < (hitOf query p).similarity := by
  have hnumber : (hitOf query p).similarity.isNaN = false :=
    hnumbers p.1 (List.mem_of_getElem? hp)
  rw [Score.not_le_iff, hthreshold, hnumber]
  simp

/-- As many documents are ranked as score above the threshold. -/
theorem length_ranked (hthreshold : threshold.isNaN = false)
    (hnumbers : ∀ d ∈ s.documents, (similarity query d.vector).isNaN = false) :
    (s.ranked query threshold).length =
      (s.scores query).countP fun x => decide (threshold < x) := by
  have hscores : s.scores query = s.documents.zipIdx.map fun p => (hitOf query p).similarity := by
    conv => lhs; rw [scores, ← List.zipIdx_map_fst 0 s.documents, List.map_map]
    rfl
  rw [ranked, List.length_insertionSort, kept, ← List.countP_eq_length_filter, hscores,
    List.countP_map]
  refine List.countP_congr fun p hp => ?_
  rw [Bool.not_eq_true', Bool.eq_false_iff, Ne, Function.comp_apply, decide_eq_true_iff,
    ← not_isBelow_iff hthreshold hnumbers (List.mem_zipIdx_iff_getElem?.mp hp)]
  exact not_congr (isBelow_score_iff p.1)

/-- Of two documents that are placed by score and position, the first outranks the second. -/
theorem outranks_of_byKey {p q : Placed} (hp : s.documents[p.2]? = some p.1)
    (hq : s.documents[q.2]? = some q.1) (hpn : (hitOf query p).similarity.isNaN = false)
    (hqn : (hitOf query q).similarity.isNaN = false) (hkey : ByKey query p q) (hne : p.2 ≠ q.2) :
    Outranks (s.scores query) p.2 q.2 := by
  refine ⟨(hitOf query p).similarity, (hitOf query q).similarity,
    getElem?_scores.mpr ⟨p.1, hp, rfl⟩, getElem?_scores.mpr ⟨q.1, hq, rfl⟩, ?_⟩
  rw [ByKey, rankKey, rankKey, Prod.Lex.toLex_le_toLex, OrderDual.toDual_lt_toDual,
    OrderDual.toDual_inj] at hkey
  rw [Score.lt_iff hqn hpn, Score.beq_iff hpn hqn]
  exact hkey.imp_right fun h => ⟨h.1, Nat.lt_of_le_of_ne h.2 hne⟩

/-- Where threshold and scores are numbers, the documents that are not passed over are ranked. -/
theorem ranking_ranked (hthreshold : threshold.isNaN = false)
    (hnumbers : ∀ d ∈ s.documents, (similarity query d.vector).isNaN = false) :
    Ranking (s.scores query) threshold ((s.ranked query threshold).map Prod.snd) := by
  have hmem (p : Placed) : p ∈ s.ranked query threshold ↔
      s.documents[p.2]? = some p.1 ∧ threshold < (hitOf query p).similarity := by
    rw [ranked, List.mem_insertionSort, mem_kept_iff]
    exact and_congr_right fun hp => not_isBelow_iff hthreshold hnumbers hp
  constructor
  · intro i
    rw [List.mem_map]
    constructor
    · rintro ⟨p, hp, rfl⟩
      obtain ⟨hplaced, habove⟩ := (hmem p).mp hp
      exact ⟨_, getElem?_scores.mpr ⟨p.1, hplaced, rfl⟩, habove⟩
    · rintro ⟨x, hx, habove⟩
      obtain ⟨d, hd, rfl⟩ := getElem?_scores.mp hx
      exact ⟨(d, i), (hmem (d, i)).mpr ⟨hd, habove⟩, rfl⟩
  · have hpositions : (s.ranked query threshold).Pairwise fun p q => p.2 ≠ q.2 :=
      (s.kept_ascending.imp Nat.ne_of_lt).perm (List.perm_insertionSort _ _).symm Ne.symm
    have hkeys := List.pairwise_insertionSort (ByKey query) (s.kept query threshold)
    refine List.pairwise_map.mpr ((hkeys.and hpositions).imp_of_mem fun {p q} hp hq h => ?_)
    obtain ⟨hp, -⟩ := (hmem p).mp hp
    obtain ⟨hq, -⟩ := (hmem q).mp hq
    exact outranks_of_byKey hp hq (hnumbers p.1 (List.mem_of_getElem? hp))
      (hnumbers q.1 (List.mem_of_getElem? hq)) h.1 h.2

/-- Where the threshold and all scores are numbers, a search finds the best documents above the
threshold, as many as the limit allows, in their one order. -/
theorem search_takes_best (s : Store) (query : Vector32) (threshold : Float32)
    (hthreshold : threshold.isNaN = false)
    (hnumbers : ∀ d ∈ s.documents, (similarity query d.vector).isNaN = false) :
    ∃ order, s.TakesBest query threshold order := by
  have hranking := ranking_ranked hthreshold hnumbers
  have hscores : ∀ x ∈ s.scores query, x.isNaN = false := by
    intro x hx
    obtain ⟨d, hd, rfl⟩ := List.mem_map.mp hx
    exact hnumbers d hd
  have hsearch (limit : Nat) : s.search query threshold limit =
      ((s.ranked query threshold).take limit).map (hitOf query) :=
    search_eq_take_ranked hnumbers limit
  refine ⟨_, hranking, fun order' h => hranking.unique h, hranking.nodup, ?_, fun limit => ?_,
    fun limit => ?_, fun limit i hi j hj x y hx hy => ?_, fun limit more hle => ?_⟩
  · rw [List.length_map, length_ranked hthreshold hnumbers]
  · rw [hsearch, ← List.map_take, List.forall₂_map_left_iff, List.forall₂_map_right_iff,
      List.forall₂_same]
    intro p hp
    have hkept := (List.mem_insertionSort _).mp (List.mem_of_mem_take hp)
    exact ⟨p.1, (mem_kept_iff.mp hkept).1, isOf_score query p.1⟩
  · rw [hsearch, List.length_map, List.length_take, List.length_map]
  · exact hranking.not_lt_of_taken hthreshold hscores hi hj hx hy
  · rw [hsearch, hsearch]
    exact (List.take_prefix_take_left hle).map _

/-- Notes on a board of two dimensions: two of one direction, one across, two without a direction of
this dimension, and one in the opposite direction. -/
def board : Store := ofDeposits
  [⟨"across", .null, [0, 0x3F800000]⟩, ⟨"along", .object [("n", .bool true)], [0x3F800000, 0]⟩,
    ⟨"short", .null, [0x3F800000]⟩, ⟨"far along", .null, [0x40000000, 0]⟩,
    ⟨"still", .null, [0, 0]⟩, ⟨"against", .null, [0xBF800000, 0]⟩]

/-- The two notes of the direction asked for come first, in the order they were pinned up, and the
limit cuts between notes of one score. -/
theorem board_search_takes_best :
    (-0.5 : Float32).isNaN = false ∧
    (∀ d ∈ board.documents, (similarity [1, 0] d.vector).isNaN = false) ∧
    (∃ order, board.TakesBest [1, 0] (-0.5) order) ∧
    (board.search [1, 0] (-0.5) 4).map Hit.content = ["along", "far along", "across", "short"] ∧
    (board.search [1, 0] (-0.5) 9).map Hit.content =
      ["along", "far along", "across", "short", "still"] := by
  have hthreshold : (-0.5 : Float32).isNaN = false := by decide +kernel
  have hnumbers : ∀ d ∈ board.documents, (similarity [1, 0] d.vector).isNaN = false := by
    decide +kernel
  exact ⟨hthreshold, hnumbers, search_takes_best board [1, 0] (-0.5) hthreshold hnumbers,
    by decide +kernel, by decide +kernel⟩

end Store

end TriageFlow
