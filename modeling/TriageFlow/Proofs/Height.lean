import TriageFlow.Proofs.Spelling
import TriageFlow.Proofs.TokenNesting

/-!
How high a predicate is that a rule text spells. The levels of the count bound what is read: inside
a group at a level, an operand has no more negations above it than levels have been entered since,
and for each of them it is higher by a disjunction, a conjunction and a comparison at most
(`Progress.Fits`). Every token keeps this (`Fits.step`), so the nesting of a text bounds the height
of its predicate and the negations on every way down to a leaf (`ofText_height_le`).
-/

namespace TriageFlow

/-! ## Ways down a predicate -/

namespace Predicate

/-- The predicates that a predicate is made of. -/
def operands : Predicate → List Predicate
  | literal _ => []
  | field _ => []
  | compare _ left right => [left, right]
  | all operands => operands
  | any operands => operands
  | not operand => [operand]

/-- Whether a predicate is a negation. -/
def isNegation : Predicate → Bool
  | not _ => true
  | _ => false

/-- The predicates on a way from a predicate down to a leaf. -/
inductive Way : Predicate → List Predicate → Prop where
  | leaf {p} : p.operands = [] → Way p [p]
  | down {p q way} : q ∈ p.operands → Way q way → Way p (p :: way)

mutual

/-- The weight of the heaviest way from a predicate down to a leaf, where a negation weighs one and
every other predicate a given share. -/
def weight (share : Nat) : Predicate → Nat
  | literal _ => share
  | field _ => share
  | compare _ left right => share + max (weight share left) (weight share right)
  | all operands => share + heaviest share operands
  | any operands => share + heaviest share operands
  | not operand => 1 + weight share operand

/-- The weight of the heaviest of some predicates. -/
def heaviest (share : Nat) : List Predicate → Nat
  | [] => 0
  | p :: rest => max (weight share p) (heaviest share rest)

end

/-- The number of predicates on the longest way down to a leaf; the height of a leaf is one. -/
def height (p : Predicate) : Nat := p.weight 1

variable {share n : Nat} {p q last : Predicate} {ps before way : List Predicate}

theorem heaviest_le_iff : heaviest share ps ≤ n ↔ ∀ p ∈ ps, p.weight share ≤ n := by
  induction ps with
  | nil => simp [heaviest]
  | cons p ps ih => rw [heaviest, Nat.max_le, ih, List.forall_mem_cons]

theorem weight_negate (share k : Nat) (p : Predicate) :
    (p.negate k).weight share = k + p.weight share := by
  induction k with
  | zero => simp [negate]
  | succ k ih =>
    rw [negate, weight, ih]
    omega

theorem weight_le_heaviest (h : p ∈ ps) : p.weight share ≤ heaviest share ps :=
  heaviest_le_iff.mp (Nat.le_refl _) p h

/-- A predicate weighs what it adds itself and what any of its operands weighs. -/
theorem weight_of_mem_operands (h : q ∈ p.operands) :
    (if p.isNegation then 1 else share) + q.weight share ≤ p.weight share := by
  cases p with
  | literal | field => cases h
  | compare op left right =>
    have hq : q = left ∨ q = right := by simpa [operands] using h
    rw [weight]
    rcases hq with rfl | rfl
    · exact Nat.add_le_add_left (Nat.le_max_left _ _) share
    · exact Nat.add_le_add_left (Nat.le_max_right _ _) share
  | all ps | any ps =>
    rw [weight]
    exact Nat.add_le_add_left (weight_le_heaviest h) share
  | not operand =>
    rw [List.mem_singleton.mp h, weight]
    exact Nat.le_refl _

/-- No way has more negations than the weight counts. -/
theorem Way.countP_isNegation_le (h : p.Way way) : way.countP isNegation ≤ p.weight 0 := by
  induction h with
  | @leaf p hleaf =>
    cases p with
    | not operand => cases hleaf
    | _ => exact Nat.zero_le _
  | @down p q way hq _ ih =>
    have hstep : (if p.isNegation then 1 else 0) + q.weight 0 ≤ p.weight 0 :=
      weight_of_mem_operands hq
    rw [List.countP_cons]
    omega

end Predicate

namespace Rule

open Predicate (weight heaviest)

variable {share rate : Nat} {p last : Predicate} {before : List Predicate}

/-! ## Groups -/

theorem weight_gather (connect : List Predicate → Predicate) {n : Nat}
    (hconnect : ∀ ps, (connect ps).weight share = share + heaviest share ps)
    (hlast : last.weight share ≤ n) (hbefore : ∀ p ∈ before, p.weight share ≤ n) :
    (Group.gather connect last before).weight share ≤ n + share := by
  unfold Group.gather
  split
  · omega
  · rw [hconnect, Nat.add_comm]
    refine Nat.add_le_add_right (Predicate.heaviest_le_iff.mpr ?_) share
    simpa [or_imp, forall_and] using ⟨hbefore, hlast⟩

/-- What is finished in a group is made of operands of bounded weight. -/
structure Group.Within (share bound : Nat) (g : Group) : Prop where
  left : ∀ p op, g.left = some (p, op) → p.weight share ≤ bound
  conjuncts : ∀ p ∈ g.conjuncts, p.weight share ≤ bound + share
  alternatives : ∀ p ∈ g.alternatives, p.weight share ≤ bound + 2 * share

namespace Group.Within

variable {bound bound' : Nat} {g : Group}

theorem fresh : Group.fresh.Within share bound := ⟨nofun, nofun, nofun⟩

theorem mono (h : g.Within share bound) (hle : bound ≤ bound') : g.Within share bound' where
  left p op hp := by
    have := h.left p op hp
    omega
  conjuncts p hp := by
    have := h.conjuncts p hp
    omega
  alternatives p hp := by
    have := h.alternatives p hp
    omega

theorem compared (h : g.Within share bound) (hp : p.weight share ≤ bound) :
    (g.compared p).weight share ≤ bound + share := by
  unfold Group.compared
  split
  · next left op hleft =>
    have := h.left left op hleft
    rw [weight]
    omega
  · omega

theorem conjoined (h : g.Within share bound) (hp : p.weight share ≤ bound) :
    (g.conjoined p).weight share ≤ bound + 2 * share := by
  have hweight := weight_gather .all (fun _ => by rw [weight]) (h.compared hp)
    h.conjuncts
  rw [Group.conjoined]
  omega

theorem finished (h : g.Within share bound) (hp : p.weight share ≤ bound) :
    (g.finished p).weight share ≤ bound + 3 * share := by
  have hweight := weight_gather .any (fun _ => by rw [weight]) (h.conjoined hp)
    h.alternatives
  rw [Group.finished]
  omega

end Group.Within

/-! ## Levels -/

/-- A group in its place: its base is the level inside it, what is read next in it stands below a
limit, and nothing has been deeper than `deepest`. -/
structure Seat (share rate deepest limit base : Nat) (g : Group) : Prop where
  within : g.Within share (rate * (deepest - base) + share)
  reach : base + g.negations < limit
  limit : limit ≤ deepest + 1

/-- Open groups in their places, the innermost first; the level of each is the limit of the group
around it. -/
inductive Seated (share rate deepest : Nat) : Nat → List Group → List Nat → Prop where
  | outermost {limit g} : Seat share rate deepest limit 0 g →
    Seated share rate deepest limit [g] []
  | inside {limit g level groups levels} : Seat share rate deepest limit level g →
    Seated share rate deepest level groups levels →
    Seated share rate deepest limit (g :: groups) (level :: levels)

variable {deepest deepest' limit limit' base : Nat} {g g' : Group} {outer : List Group}
  {levels : List Nat}

theorem Seat.deepen (h : Seat share rate deepest limit base g) (hle : deepest ≤ deepest') :
    Seat share rate deepest' limit base g where
  within := h.within.mono (Nat.add_le_add_right
    (Nat.mul_le_mul_left rate (Nat.sub_le_sub_right hle base)) share)
  reach := h.reach
  limit := Nat.le_trans h.limit (Nat.add_le_add_right hle 1)

theorem Seat.base_le (h : Seat share rate deepest limit base g) : base ≤ deepest := by
  have hreach := h.reach
  have hlimit := h.limit
  omega

/-- What is finished at a level costs no more, with negations above it, than the levels that have
been entered since the base of the group around it: its own level is one of them. -/
theorem cost_of_level {level k w : Nat} (hrate : 1 ≤ rate) (hshare : 3 * share ≤ rate)
    (hw : w ≤ rate * (deepest - level) + share + 3 * share) (hlevel : level ≤ deepest)
    (hreach : base + k < level) (hdeepest : deepest ≤ deepest') :
    k + w ≤ rate * (deepest' - base) + share := by
  have hroom : (deepest - level) + (k + 1) ≤ deepest' - base := by omega
  have hcost := Nat.mul_le_mul_left rate hroom
  have hnegations := Nat.mul_le_mul_right k hrate
  rw [Nat.mul_add, Nat.mul_add, Nat.mul_one] at hcost
  omega

namespace Seated

theorem deepen {groups : List Group} (h : Seated share rate deepest limit groups levels)
    (hle : deepest ≤ deepest') : Seated share rate deepest' limit groups levels := by
  induction h with
  | outermost hseat => exact .outermost (hseat.deepen hle)
  | inside hseat _ ih => exact .inside (hseat.deepen hle) ih

theorem seat (h : Seated share rate deepest limit (g :: outer) levels) :
    Seat share rate deepest limit (levels.headD 0) g := by
  cases h with
  | outermost hseat => exact hseat
  | inside hseat _ => exact hseat

/-- Another group in the place of the innermost one. -/
theorem replace (h : Seated share rate deepest limit (g :: outer) levels)
    (hseat : Seat share rate deepest limit' (levels.headD 0) g') :
    Seated share rate deepest limit' (g' :: outer) levels := by
  cases h with
  | outermost _ => exact .outermost hseat
  | inside _ houter => exact .inside hseat houter

end Seated

/-- A count after a token that opens and closes nothing and does not negate. -/
structure NestingCount.Settles (n n' : NestingCount) : Prop where
  groups : n'.groups = n.groups
  base : n.base ≤ n'.level
  level : n'.level ≤ n'.deepest
  deepest : n.deepest ≤ n'.deepest

/-- Whether a token changes the levels that are open. -/
def Token.nests : Token → Bool
  | .opening => true
  | .closing => true
  | .not => true
  | _ => false

theorem nests_of_comparisonOf {token : Token} {op : Comparison}
    (h : comparisonOf token = some op) : token.nests = false := by
  cases token with
  | opening | closing | not => cases h
  | _ => rfl

namespace NestingCount

variable {n n' : NestingCount} {token : Token}

theorem settles_leave (n : NestingCount) : n.Settles n.leave :=
  ⟨rfl, Nat.le_refl _, Nat.le_max_right _ _, Nat.le_max_left _ _⟩

theorem Settles.base_eq (h : n.Settles n') : n'.base = n.base :=
  congrArg (List.headD · 0) h.groups

theorem settles_read (hbase : n.base ≤ n.level) (hlevel : n.level ≤ n.deepest)
    (htoken : token.nests = false) : n.Settles (n.read token) := by
  have hsame : n.Settles n := ⟨rfl, hbase, hlevel, Nat.le_refl _⟩
  cases token with
  | opening | closing | not => cases htoken
  | or | and | compare => exact hsame
  | null | truth | number => exact n.settles_leave
  | string => exact ⟨rfl, Nat.le_refl _, Nat.le_trans hbase hlevel, Nat.le_refl _⟩
  | path name =>
    rw [read, pass]
    split
    · exact n.settles_leave
    · exact hsame

end NestingCount

/-- What has been read fits under the levels of the count. -/
structure Progress.Fits (share rate : Nat) (n : NestingCount) (s : Progress) : Prop where
  seated : Seated share rate n.deepest (n.level + 1) (s.group :: s.outer) n.groups
  operand : ∀ p, s.operand = some p → s.group.negations = 0 ∧
    p.weight share ≤ rate * (n.deepest - n.base) + share

namespace Progress.Fits

variable {n n' : NestingCount} {s s' : Progress} {token : Token} {tokens : List Token}

theorem start : Fits share rate ⟨[], 0, 0⟩ .start where
  seated := .outermost ⟨.fresh, Nat.zero_lt_one, Nat.le_refl _⟩
  operand := nofun

theorem reach (h : Fits share rate n s) : n.base + s.group.negations ≤ n.level :=
  Nat.le_of_lt_succ h.seated.seat.reach

theorem level_le (h : Fits share rate n s) : n.level ≤ n.deepest :=
  Nat.le_of_succ_le_succ h.seated.seat.limit

theorem settles (h : Fits share rate n s)
    (htoken : token.nests = false) : n.Settles (n.read token) :=
  NestingCount.settles_read (Nat.le_trans (Nat.le_add_right _ _) h.reach) h.level_le htoken

/-- An operand under its negations fits where it was due. -/
theorem primary (h : Seated share rate n.deepest limit (s.group :: s.outer) n.groups)
    (hn : n.Settles n')
    (hweight : s.group.negations + p.weight share ≤ rate * (n'.deepest - n.base) + share) :
    Fits share rate n' (s.primary p) where
  seated := by
    have hseat := h.seat.deepen hn.deepest
    rw [hn.groups]
    exact (h.deepen hn.deepest).replace
      ⟨⟨hseat.within.left, hseat.within.conjuncts, hseat.within.alternatives⟩,
        Nat.lt_succ_of_le hn.base, Nat.succ_le_succ hn.level⟩
  operand q hq := by
    obtain rfl := Option.some.inj hq
    exact ⟨rfl, by rwa [Predicate.weight_negate, hn.base_eq]⟩

/-- After an operand, the group goes on with something else that is due. -/
theorem resume (h : Fits share rate n s) (hn : n.Settles n') (hnegations : g.negations = 0)
    (hwithin : g.Within share (rate * (n.deepest - n.base) + share)) :
    Fits share rate n' { s with group := g, operand := none } where
  seated := by
    rw [hn.groups]
    refine (h.seated.deepen hn.deepest).replace ⟨hwithin.mono ?_, ?_, Nat.succ_le_succ hn.level⟩
    · exact Nat.add_le_add_right
        (Nat.mul_le_mul_left rate (Nat.sub_le_sub_right hn.deepest _)) share
    · rw [hnegations]
      exact Nat.lt_succ_of_le hn.base
  operand := nofun

/-- A leaf fits: the level counts the negations above it. -/
theorem leaf (hrate : 1 ≤ rate) (h : Fits share rate n s) (hn : n.Settles n')
    (hp : p.weight share = share) : Fits share rate n' (s.primary p) := by
  refine primary h.seated hn ?_
  have hreach := h.reach
  have hlevel := h.level_le
  have hdeepest := hn.deepest
  calc s.group.negations + p.weight share
      ≤ 1 * (n'.deepest - n.base) + share := by omega
    _ ≤ rate * (n'.deepest - n.base) + share :=
      Nat.add_le_add_right (Nat.mul_le_mul_right _ hrate) share

theorem negation (h : Fits share rate n s) (hoperand : s.operand = none) :
    Fits share rate (n.read .not)
      { s with group := { s.group with negations := s.group.negations + 1 } } where
  seated := by
    have hdeepest : n.deepest ≤ (n.enter (n.level + 1)).deepest := Nat.le_max_left _ _
    have hseat := h.seated.seat.deepen hdeepest
    exact (h.seated.deepen hdeepest).replace
      ⟨⟨hseat.within.left, hseat.within.conjuncts, hseat.within.alternatives⟩,
        Nat.succ_lt_succ hseat.reach, Nat.succ_le_succ (Nat.le_max_right _ _)⟩
  operand p hp := by
    rw [hoperand] at hp
    cases hp

theorem opening (h : Fits share rate n s) :
    Fits share rate (n.read .opening) ⟨s.group :: s.outer, .fresh, none⟩ where
  seated := .inside
    ⟨.fresh, Nat.lt_succ_self _, Nat.succ_le_succ (Nat.le_max_right _ _)⟩
    (h.seated.deepen (Nat.le_max_left _ _))
  operand := nofun

/-- A group that is closed fits as an operand of the group around it: it has cost a level. -/
theorem closing (hrate : 1 ≤ rate) (hshare : 3 * share ≤ rate) (h : Fits share rate n s)
    (hp : s.operand = some p) {around : Group} (houter : s.outer = around :: outer) :
    Fits share rate (n.read .closing)
      (Progress.primary ⟨outer, around, none⟩ (s.group.finished p)) := by
  obtain ⟨levels, level, deepest⟩ := n
  obtain ⟨groups, group, operand⟩ := s
  obtain rfl : groups = around :: outer := houter
  obtain ⟨seated, hoperand⟩ := h
  cases seated with
  | inside hseat haround =>
    have hfinished := hseat.within.finished (hoperand p hp).2
    exact primary haround (NestingCount.settles_leave ⟨_, level, deepest⟩) <|
      cost_of_level hrate hshare hfinished hseat.base_le haround.seat.reach (Nat.le_max_left _ _)

/-- Every token keeps what has been read under the levels of the count. -/
theorem step (hrate : 1 ≤ rate) (hshare : 3 * share ≤ rate) (h : Fits share rate n s)
    (hstep : s.step token = some s') : Fits share rate (n.read token) s' := by
  have hwithin := h.seated.seat.within
  cases Progress.step_eq_some_iff.mp hstep with
  | negation => exact h.negation rfl
  | opening => exact h.opening
  | leaf hleaf =>
    cases hleaf <;> exact h.leaf hrate (h.settles rfl) rfl
  | comparison hop _ =>
    obtain ⟨hnegations, hp⟩ := h.operand _ rfl
    refine h.resume (h.settles (nests_of_comparisonOf hop)) hnegations
      ⟨?_, hwithin.conjuncts, hwithin.alternatives⟩
    rintro q op ⟨⟩
    exact hp
  | and =>
    have hp := hwithin.compared (h.operand _ rfl).2
    exact h.resume (h.settles rfl) rfl
      ⟨nofun, List.forall_mem_cons.mpr ⟨hp, hwithin.conjuncts⟩, hwithin.alternatives⟩
  | or =>
    have hp := hwithin.conjoined (h.operand _ rfl).2
    exact h.resume (h.settles rfl) rfl
      ⟨nofun, nofun, List.forall_mem_cons.mpr ⟨hp, hwithin.alternatives⟩⟩
  | closing => exact h.closing hrate hshare rfl rfl

theorem run (hrate : 1 ≤ rate) (hshare : 3 * share ≤ rate) (h : Fits share rate n s)
    (hrun : s.run tokens = some s') : Fits share rate (tokens.foldl NestingCount.read n) s' := by
  induction tokens generalizing s n with
  | nil =>
    obtain rfl := Option.some.inj hrun
    exact h
  | cons token tokens ih =>
    obtain ⟨t, ht, hrun⟩ := Option.bind_eq_some_iff.mp hrun
    exact ih (h.step hrate hshare ht) hrun

end Progress.Fits

/-! ## The height of what is read -/

theorem weight_le_of_ofTokens? {tokens : List Token} (hrate : 1 ≤ rate) (hshare : 3 * share ≤ rate)
    (h : ofTokens? tokens = some p) :
    p.weight share ≤ rate * (tokens.foldl NestingCount.read ⟨[], 0, 0⟩).deepest + 4 * share := by
  obtain ⟨group, last, hrun, rfl⟩ := ofTokens?_eq_some_iff.mp h
  let count := tokens.foldl NestingCount.read ⟨[], 0, 0⟩
  have hfits : Progress.Fits share rate count ⟨[], group, some last⟩ :=
    Progress.Fits.start.run hrate hshare hrun
  have hlast : last.weight share ≤ rate * (count.deepest - count.base) + share :=
    (hfits.operand last rfl).2
  calc (group.finished last).weight share
      ≤ rate * (count.deepest - count.base) + share + 3 * share :=
        hfits.seated.seat.within.finished hlast
    _ ≤ rate * count.deepest + share + 3 * share :=
        Nat.add_le_add_right (Nat.add_le_add_right
          (Nat.mul_le_mul_left rate (Nat.sub_le _ _)) share) (3 * share)
    _ = rate * count.deepest + 4 * share := by omega

/-- The nesting of a rule text that is accepted bounds its predicate: the height is at most three
times the nesting and four, which the limit of nesting keeps below 197, and on no way down to a leaf
are there more negations than the nesting. -/
theorem ofText_height_le {source : String} {p : Predicate}
    (h : Predicate.ofText source = .ok p) :
    p.height ≤ 3 * nestingOf source.toList + 4 ∧ p.height ≤ 196 ∧
      ∀ way, p.Way way → way.countP Predicate.isNegation ≤ nestingOf source.toList := by
  obtain ⟨hdepth, tokens, hlexes, hread, -⟩ := ofText_eq_ok_iff.mp h
  have hheight : p.height ≤ 3 * nestingOf source.toList + 4 := by
    rw [hlexes.nestingOf_eq]
    exact weight_le_of_ofTokens? (by decide) (by decide) hread
  have hnegations : p.weight 0 ≤ nestingOf source.toList := by
    have hweight : p.weight 0 ≤
        1 * (tokens.foldl NestingCount.read ⟨[], 0, 0⟩).deepest + 4 * 0 :=
      weight_le_of_ofTokens? (by decide) (by decide) hread
    rw [hlexes.nestingOf_eq]
    omega
  refine ⟨hheight, ?_, fun way hway => Nat.le_trans hway.countP_isNegation_le hnegations⟩
  have hlimit : nestingOf source.toList ≤ 64 := hdepth
  omega

/-- A rule text in which every level adds a disjunction, a conjunction and a comparison. -/
def packedText : String := "z || y && x == (w || v && u != '\"(!')"

/-- What `packedText` spells. -/
def packed : Predicate :=
  .any [.field ⟨"z", []⟩, .all [.field ⟨"y", []⟩, .compare .equal (.field ⟨"x", []⟩)
    (.any [.field ⟨"w", []⟩, .all [.field ⟨"v", []⟩,
      .compare .notEqual (.field ⟨"u", []⟩) (.literal (.string "\"(!"))]])]]

/-- A packed text is as high as its nesting allows. -/
theorem packedText_height_le :
    Predicate.ofText packedText = .ok packed ∧ packed.height = 7 ∧
      nestingOf packedText.toList = 1 ∧ packed.height ≤ 3 * nestingOf packedText.toList + 4 ∧
      packed.height ≤ 196 ∧
      ∀ way, packed.Way way → way.countP Predicate.isNegation ≤ nestingOf packedText.toList := by
  have hread : Predicate.ofText packedText = .ok packed := rfl
  exact ⟨hread, by decide, by decide +kernel, ofText_height_le hread⟩

end Rule

end TriageFlow
