import TriageFlow.Proofs.RouteScan
import TriageFlow.Proofs.Warnings

/-!
What the check of a definition decides. It refuses a definition for the first node that offends,
and for the first thing wrong with that node (`check_eq_error_iff`). Otherwise it gives the
warnings, which stand in the order of the nodes and their rules: each belongs to a site, the sites
increase, and what is told at a site is what its rule gives cause for (`lists_warnings`).
-/

namespace TriageFlow

/-! ## Refusals -/

namespace Node

variable {registered : String → Bool} {earlier : List String} {n : Node} {fault other : Fault}

/-- The tests that a node fails which stands behind nodes of given ids, by their number in the order
in which they are made. -/
inductive Fails (registered : String → Bool) (earlier : List String) (n : Node) :
    Nat → Fault → Prop where
  | blank : Text.trim n.id.toList = [] → Fails registered earlier n 0 (.definition .emptyId)
  | dotted : '.' ∈ n.id.toList → Fails registered earlier n 1 (.definition (.dottedId n.id))
  | reserved : n.id ∈ Context.reservedKeys →
    Fails registered earlier n 2 (.definition (.reservedId n.id))
  | duplicate : n.id ∈ earlier → Fails registered earlier n 3 (.definition (.duplicateId n.id))
  | unknown {name : String} : n.kind = .transform name → registered name = false →
    Fails registered earlier n 4 (.unknownTransform name)

/-- A node passes the tests before a number. -/
def Passes (registered : String → Bool) (earlier : List String) (n : Node) (number : Nat) : Prop :=
  ∀ before < number, ∀ fault, ¬n.Fails registered earlier before fault

/-- A node offends by the first test that it fails. -/
def Offends (registered : String → Bool) (earlier : List String) (n : Node) (fault : Fault) :
    Prop :=
  ∃ number, n.Fails registered earlier number fault ∧ n.Passes registered earlier number

theorem Passes.succ {number : Nat} (h : n.Passes registered earlier number)
    (hnext : ∀ fault, ¬n.Fails registered earlier number fault) :
    n.Passes registered earlier (number + 1) := by
  intro before hbefore
  rcases Nat.lt_succ_iff_lt_or_eq.mp hbefore with hlt | rfl
  · exact h before hlt
  · exact hnext

theorem Fails.unique {number : Nat} (h : n.Fails registered earlier number fault)
    (h' : n.Fails registered earlier number other) : fault = other := by
  cases h with
  | unknown hkind hname =>
    cases h' with
    | unknown hkind' hname' =>
      rw [hkind] at hkind'
      cases hkind'
      rfl
  | _ => cases h'; rfl

theorem Offends.unique (h : n.Offends registered earlier fault)
    (h' : n.Offends registered earlier other) : fault = other := by
  obtain ⟨number, hfails, hfirst⟩ := h
  obtain ⟨number', hfails', hfirst'⟩ := h'
  rcases Nat.lt_trichotomy number number' with hlt | rfl | hlt
  · exact absurd hfails (hfirst' number hlt fault)
  · exact hfails.unique hfails'
  · exact absurd hfails' (hfirst number' hlt other)

/-- A sound node with a new id fails no test. -/
theorem Sound.not_offends (h : n.Sound registered) (hnew : n.id ∉ earlier) :
    ¬n.Offends registered earlier fault := by
  rintro ⟨number, hfails, -⟩
  cases hfails with
  | blank hblank => exact h.nonblank hblank
  | dotted hdot => exact h.undotted hdot
  | reserved hreserved => exact h.unreserved hreserved
  | duplicate hearlier => exact hnew hearlier
  | unknown hkind hname =>
    rw [h.known _ hkind] at hname
    cases hname

/-- What is found wrong with a node is the first test that it fails. -/
theorem offends_of_fault? (h : n.fault? registered earlier = some fault) :
    n.Offends registered earlier fault := by
  unfold fault? at h
  have hpasses : n.Passes registered earlier 0 := nofun
  split at h
  · next hblank =>
    cases h
    exact ⟨0, .blank (by simpa using hblank), hpasses⟩
  next hblank =>
  have hpasses : n.Passes registered earlier 1 := hpasses.succ fun _ hfails => by
    cases hfails with | blank h => exact hblank (by simpa using h)
  split at h
  · next hdot =>
    cases h
    exact ⟨1, .dotted (by simpa using hdot), hpasses⟩
  next hdot =>
  have hpasses : n.Passes registered earlier 2 := hpasses.succ fun _ hfails => by
    cases hfails with | dotted h => exact hdot (by simpa using h)
  split at h
  · next hreserved =>
    cases h
    exact ⟨2, .reserved (by simpa using hreserved), hpasses⟩
  next hreserved =>
  have hpasses : n.Passes registered earlier 3 := hpasses.succ fun _ hfails => by
    cases hfails with | reserved h => exact hreserved (by simpa using h)
  split at h
  · next hearlier =>
    cases h
    exact ⟨3, .duplicate (by simpa using hearlier), hpasses⟩
  next hearlier =>
  have hpasses : n.Passes registered earlier 4 := hpasses.succ fun _ hfails => by
    cases hfails with | duplicate h => exact hearlier (by simpa using h)
  split at h
  · next name hkind =>
    split at h
    · cases h
    · next hname =>
      cases h
      exact ⟨4, .unknown hkind (by simpa using hname), hpasses⟩
  · cases h

/-- A node is refused for the first test that it fails. -/
theorem fault?_eq_some_iff :
    n.fault? registered earlier = some fault ↔ n.Offends registered earlier fault := by
  refine ⟨offends_of_fault?, fun hoffends => ?_⟩
  cases hfault : n.fault? registered earlier with
  | none =>
    obtain ⟨hsound, hnew⟩ := fault?_eq_none_iff.mp hfault
    exact absurd hoffends (hsound.not_offends hnew)
  | some other => rw [(offends_of_fault? hfault).unique hoffends]

end Node

namespace Definition

variable {d : Definition} {registered : String → Bool} {fault : Fault}

/-- A definition is refused for its first node that offends: up to that node it is valid. -/
def FirstOffence (d : Definition) (registered : String → Bool) (fault : Fault) : Prop :=
  ∃ front n rest, d.nodes = front ++ n :: rest ∧ Valid { d with nodes := front } registered ∧
    n.Offends registered (front.map Node.id) fault

/-- The nodes behind others are looked at only if nothing is wrong with those. -/
theorem firstFault?_append (earlier : List String) (front rest : List Node) :
    firstFault? registered earlier (front ++ rest) =
      (firstFault? registered earlier front).or
        (firstFault? registered (earlier ++ front.map Node.id) rest) := by
  induction front generalizing earlier with
  | nil => simp [firstFault?]
  | cons n front ih =>
    simp only [List.cons_append, firstFault?]
    cases n.fault? registered earlier with
    | some fault => rfl
    | none => simp [ih]

theorem firstFault?_eq_some_iff {nodes : List Node} {earlier : List String} :
    firstFault? registered earlier nodes = some fault ↔
      ∃ front n rest, nodes = front ++ n :: rest ∧ firstFault? registered earlier front = none ∧
        n.fault? registered (earlier ++ front.map Node.id) = some fault := by
  constructor
  · intro h
    induction nodes generalizing earlier with
    | nil => cases h
    | cons first nodes ih =>
      cases hfirst : first.fault? registered earlier with
      | some other =>
        simp only [firstFault?, hfirst] at h
        exact ⟨[], first, nodes, rfl, rfl, by simpa [hfirst] using h⟩
      | none =>
        simp only [firstFault?, hfirst] at h
        obtain ⟨front, n, rest, rfl, hfront, hn⟩ := ih h
        exact ⟨first :: front, n, rest, rfl, by simpa [firstFault?, hfirst] using hfront,
          by simpa using hn⟩
  · rintro ⟨front, n, rest, rfl, hfront, hn⟩
    rw [firstFault?_append, hfront, Option.none_or, firstFault?, hn]

/-- The check refuses a definition for its first node that offends. -/
theorem check_eq_error_iff :
    d.check registered = .error fault ↔ d.FirstOffence registered fault := by
  have hcheck : d.check registered = .error fault ↔
      firstFault? registered [] d.nodes = some fault := by
    unfold check
    cases firstFault? registered [] d.nodes with
    | none => simp
    | some other => simp
  have hvalid (front : List Node) : firstFault? registered [] front = none ↔
      Valid { d with nodes := front } registered :=
    firstFault?_nodes_eq_none_iff (d := { d with nodes := front })
  rw [hcheck, firstFault?_eq_some_iff]
  simp only [hvalid, Node.fault?_eq_some_iff, List.nil_append]
  rfl

end Definition

/-! ## Numbered lists -/

section Numbered

variable {α β γ : Type} {f : Nat → α → List β} {l : List α}

theorem mem_flatten_mapIdx_iff {b : β} :
    b ∈ (l.mapIdx f).flatten ↔ ∃ i a, l[i]? = some a ∧ b ∈ f i a := by
  simp only [List.mem_flatten, List.mem_mapIdx]
  constructor
  · rintro ⟨_, ⟨i, hi, rfl⟩, hmem⟩
    exact ⟨i, l[i], List.getElem?_eq_getElem hi, hmem⟩
  · rintro ⟨i, a, ha, hmem⟩
    obtain ⟨hi, rfl⟩ := List.getElem?_eq_some_iff.mp ha
    exact ⟨_, ⟨i, hi, rfl⟩, hmem⟩

theorem map_flatten_mapIdx (g : β → γ) :
    (l.mapIdx f).flatten.map g = (l.mapIdx fun i a => (f i a).map g).flatten := by
  rw [List.map_flatten, List.mapIdx_eq_zipIdx_map, List.mapIdx_eq_zipIdx_map, List.map_map]
  rfl

/-- What the items of a list give one after the other is ordered if it is for each item and
between any two of them. -/
theorem pairwise_flatten_mapIdx {r : β → β → Prop} (hitem : ∀ i a, (f i a).Pairwise r)
    (hbetween : ∀ i j, i < j → ∀ a a', ∀ b ∈ f i a, ∀ b' ∈ f j a', r b b') :
    (l.mapIdx f).flatten.Pairwise r := by
  refine List.pairwise_flatten.mpr ⟨fun bs hbs => ?_, List.pairwise_iff_getElem.mpr ?_⟩
  · obtain ⟨i, hi, rfl⟩ := List.mem_mapIdx.mp hbs
    exact hitem i l[i]
  · intro i j hi hj hlt
    rw [List.getElem_mapIdx, List.getElem_mapIdx]
    exact hbetween i j hlt _ _

end Numbered

/-! ## The order of the warnings -/

/-- Where a warning belongs: to the router at a position, to one of its rules, and there to the text
or to the target. -/
structure Warning.Site where
  position : Nat
  index : Nat
  ofTarget : Bool

/-- Sites in the order of the routers and of their rules, the text of a rule before its target. -/
def Warning.Site.Before (a b : Warning.Site) : Prop :=
  a.position < b.position ∨ (a.position = b.position ∧
    (a.index < b.index ∨ (a.index = b.index ∧ a.ofTarget = false ∧ b.ofTarget = true)))

/-- Whether a warning is about the target of a rule. -/
def Warning.isOfTarget : Warning → Bool
  | invalidRule _ _ _ => false
  | _ => true

/-- The rules of a router; other nodes have none. -/
def Node.rules (n : Node) : List RouteRule :=
  match n.kind with
  | .route rules => rules
  | _ => []

theorem Node.getElem?_rules_iff {n : Node} {i : Nat} {rule : RouteRule} :
    n.rules[i]? = some rule ↔ ∃ rules, n.kind = .route rules ∧ rules[i]? = some rule := by
  unfold rules
  cases n.kind <;> simp

namespace Definition

variable {d : Definition} {registered : String → Bool} {p i : Nat} {router : String}
  {rule : RouteRule} {w : Warning}

/-- What a rule gives cause for: its text cannot be read, its target is not declared, or its target
stands at or before the router. -/
inductive Warrants (d : Definition) : Warning.Site → Warning → Prop where
  | invalid {p i n rules rule source cause} : d.nodes[p]? = some n → n.kind = .route rules →
    rules[i]? = some rule → rule.condition = .text source →
    Predicate.ofText source = .error cause →
    Warrants d ⟨p, i, false⟩ (.invalidRule n.id i (.ruleText cause))
  | dangling {p i n rules rule} : d.nodes[p]? = some n → n.kind = .route rules →
    rules[i]? = some rule → (∀ m ∈ d.nodes, m.id ≠ rule.target) →
    Warrants d ⟨p, i, true⟩ (.dangling n.id rule.target)
  | backward {p i n rules rule q m} : d.nodes[p]? = some n → n.kind = .route rules →
    rules[i]? = some rule → d.nodes[q]? = some m → m.id = rule.target → q ≤ p →
    Warrants d ⟨p, i, true⟩ (.backward n.id rule.target)

/-- The warnings of a definition with their sites. -/
def sitedWarnings (d : Definition) : List (Warning.Site × Warning) :=
  (d.nodes.mapIdx fun p n => (n.rules.mapIdx fun i rule =>
    (d.warningsOfRule p n.id i rule).map fun w => (⟨p, i, w.isOfTarget⟩, w)).flatten).flatten

theorem mem_sitedWarnings_iff {site : Warning.Site} : (site, w) ∈ d.sitedWarnings ↔
    ∃ p n rules i rule, d.nodes[p]? = some n ∧ n.kind = .route rules ∧ rules[i]? = some rule ∧
      w ∈ d.warningsOfRule p n.id i rule ∧ site = ⟨p, i, w.isOfTarget⟩ := by
  unfold sitedWarnings
  simp only [mem_flatten_mapIdx_iff, Node.getElem?_rules_iff, List.mem_map, Prod.mk.injEq]
  constructor
  · rintro ⟨p, n, hn, i, rule, ⟨rules, hkind, hrule⟩, w, hw, rfl, rfl⟩
    exact ⟨p, n, rules, i, rule, hn, hkind, hrule, hw, rfl⟩
  · rintro ⟨p, n, rules, i, rule, hn, hkind, hrule, hw, rfl⟩
    exact ⟨p, n, hn, i, rule, ⟨rules, hkind, hrule⟩, w, hw, rfl, rfl⟩

/-- Without their sites they are the warnings. -/
theorem map_snd_sitedWarnings (d : Definition) : d.sitedWarnings.map Prod.snd = d.warnings := by
  have hrule (p : Nat) (n : Node) (i : Nat) (rule : RouteRule) :
      ((d.warningsOfRule p n.id i rule).map fun w =>
        ((⟨p, i, w.isOfTarget⟩ : Warning.Site), w)).map Prod.snd =
      d.warningsOfRule p n.id i rule := by
    rw [List.map_map]
    exact List.map_id _
  have hnode (p : Nat) (n : Node) : d.warningsOfNode p n =
      (n.rules.mapIdx fun i rule => d.warningsOfRule p n.id i rule).flatten := by
    unfold warningsOfNode Node.rules
    cases n.kind <;> rfl
  unfold sitedWarnings warnings
  simp only [map_flatten_mapIdx, hrule, hnode]

/-- A rule is warned of for its text first, and then once for its target. -/
theorem warningsOfRule_ordered (d : Definition) (p : Nat) (router : String) (i : Nat)
    (rule : RouteRule) :
    (d.warningsOfRule p router i rule).Pairwise fun a b =>
      a.isOfTarget = false ∧ b.isOfTarget = true := by
  unfold warningsOfRule
  refine List.pairwise_append.mpr ⟨?_, ?_, fun a ha b hb => ⟨?_, ?_⟩⟩
  · split
    · split
      · exact .nil
      · exact List.pairwise_singleton _ _
    · exact .nil
  · split
    · exact List.pairwise_singleton _ _
    · split
      · exact List.pairwise_singleton _ _
      · exact .nil
  · split at ha
    · split at ha
      · cases ha
      · rw [List.mem_singleton.mp ha]
        rfl
    · cases ha
  · split at hb
    · rw [List.mem_singleton.mp hb]
      rfl
    · split at hb
      · rw [List.mem_singleton.mp hb]
        rfl
      · cases hb

/-- The sites of the warnings increase. -/
theorem sitedWarnings_ordered (d : Definition) :
    d.sitedWarnings.Pairwise fun a b => a.1.Before b.1 := by
  refine pairwise_flatten_mapIdx (fun p n => ?_) fun p q hlt n m a ha b hb => .inl ?_
  · refine pairwise_flatten_mapIdx (fun i rule => ?_) fun i j hlt rule rule' a ha b hb =>
      .inr ⟨?_, .inl ?_⟩
    · refine List.pairwise_map.mpr ((d.warningsOfRule_ordered p n.id i rule).imp fun h => ?_)
      exact .inr ⟨rfl, .inr ⟨rfl, h⟩⟩
    · obtain ⟨w, -, rfl⟩ := List.mem_map.mp ha
      obtain ⟨w', -, rfl⟩ := List.mem_map.mp hb
      rfl
    · obtain ⟨w, -, rfl⟩ := List.mem_map.mp ha
      obtain ⟨w', -, rfl⟩ := List.mem_map.mp hb
      exact hlt
  · obtain ⟨i, rule, -, ha⟩ := mem_flatten_mapIdx_iff.mp ha
    obtain ⟨j, rule', -, hb⟩ := mem_flatten_mapIdx_iff.mp hb
    obtain ⟨w, -, rfl⟩ := List.mem_map.mp ha
    obtain ⟨w', -, rfl⟩ := List.mem_map.mp hb
    exact hlt

theorem indexOf?_eq_none_iff {id : String} :
    d.indexOf? id = none ↔ ∀ m ∈ d.nodes, m.id ≠ id := by
  unfold indexOf?
  rw [List.findIdx?_eq_none_iff]
  simp

/-- What is told of the rules is what they give cause for. -/
theorem Valid.mem_sitedWarnings_iff (hd : d.Valid registered) {site : Warning.Site} :
    (site, w) ∈ d.sitedWarnings ↔ d.Warrants site w := by
  rw [Definition.mem_sitedWarnings_iff]
  constructor
  · rintro ⟨p, n, rules, i, rule, hn, hkind, hrule, hw, rfl⟩
    cases w with
    | invalidRule node index fault =>
      obtain ⟨rfl, rfl, hfault⟩ := invalidRule_mem_warningsOfRule_iff.mp hw
      obtain ⟨source, cause, hcondition, hread, rfl⟩ :=
        Condition.exists_of_predicate_eq_error hfault
      exact .invalid hn hkind hrule hcondition hread
    | dangling node target =>
      obtain ⟨rfl, rfl, hnone⟩ := dangling_mem_warningsOfRule_iff.mp hw
      exact .dangling hn hkind hrule (indexOf?_eq_none_iff.mp hnone)
    | backward node target =>
      obtain ⟨rfl, rfl, q, hle, hq⟩ := backward_mem_warningsOfRule_iff.mp hw
      obtain ⟨m, hm, hid⟩ := hd.indexOf?_eq_some_iff.mp hq
      exact .backward hn hkind hrule hm hid hle
  · rintro (⟨hn, hkind, hrule, hcondition, hread⟩ | ⟨hn, hkind, hrule, hmissing⟩ |
      ⟨hn, hkind, hrule, hm, hid, hle⟩)
    · refine ⟨_, _, _, _, _, hn, hkind, hrule, ?_, rfl⟩
      refine invalidRule_mem_warningsOfRule_iff.mpr ⟨rfl, rfl, ?_⟩
      rw [hcondition, Condition.predicate, hread]
      rfl
    · exact ⟨_, _, _, _, _, hn, hkind, hrule,
        dangling_mem_warningsOfRule_iff.mpr ⟨rfl, rfl, indexOf?_eq_none_iff.mpr hmissing⟩, rfl⟩
    · exact ⟨_, _, _, _, _, hn, hkind, hrule, backward_mem_warningsOfRule_iff.mpr
        ⟨rfl, rfl, _, hle, hd.indexOf?_eq_some_iff.mpr ⟨_, hm, hid⟩⟩, rfl⟩

/-- Some warnings are all that the rules of a definition give cause for, in their order: with their
sites, which increase, they are exactly those. -/
def Lists (d : Definition) (warnings : List Warning) : Prop :=
  ∃ told : List (Warning.Site × Warning), told.map Prod.snd = warnings ∧
    (told.Pairwise fun a b => a.1.Before b.1) ∧ ∀ site w, (site, w) ∈ told ↔ d.Warrants site w

theorem Valid.lists_warnings (hd : d.Valid registered) : d.Lists d.warnings :=
  ⟨d.sitedWarnings, d.map_snd_sitedWarnings, d.sitedWarnings_ordered,
    fun _ _ => hd.mem_sitedWarnings_iff⟩

/-! ## The verdict -/

/-- A definition passes its check exactly when every node is sound and ids are distinct. Otherwise
it is refused for the first test that its first offending node fails. A definition that passes
finds each node at its position, and its warnings are all that its rules give cause for, in the
order of the nodes and the rules. -/
theorem check_decides (d : Definition) (registered : String → Bool) :
    ((∃ warnings, d.check registered = .ok warnings) ↔ d.Valid registered) ∧
    (∀ fault, d.check registered = .error fault ↔ d.FirstOffence registered fault) ∧
    ∀ warnings, d.check registered = .ok warnings →
      (∀ p n, d.nodes[p]? = some n → d.indexOf? n.id = some p) ∧ d.Lists warnings := by
  refine ⟨?_, fun fault => check_eq_error_iff, fun warnings h => ?_⟩
  · simp only [check_eq_ok_iff, exists_and_left, exists_eq', and_true]
  · obtain ⟨hd, rfl⟩ := check_eq_ok_iff.mp h
    exact ⟨fun p n hn => hd.indexOf?_eq_some_iff.mpr ⟨n, hn, rfl⟩, hd.lists_warnings⟩

/-- A router whose first rule cannot be read and leads back, and whose second leads nowhere. -/
def tollgate : Definition where
  name := "tollgate"
  nodes := [
    ⟨"toll", none, false,
      .route [⟨.text "(", "toll"⟩, ⟨.tree .always, "moat"⟩, ⟨.tree .always, "yard"⟩]⟩,
    ⟨"yard", none, true, .action "greet" .null⟩]

/-- The tollgate passes with three warnings. With two more nodes it is refused, for the reserved id
of the first of them. -/
theorem tollgate_check_decides :
    tollgate.check (fun _ => false) = .ok [.invalidRule "toll" 0 (.ruleText (.malformed "(")),
      .backward "toll" "toll", .dangling "toll" "moat"] ∧
    tollgate.Valid (fun _ => false) ∧ tollgate.indexOf? "yard" = some 1 ∧
    tollgate.Lists [.invalidRule "toll" 0 (.ruleText (.malformed "(")), .backward "toll" "toll",
      .dangling "toll" "moat"] ∧
    FirstOffence { tollgate with nodes := tollgate.nodes ++ [
        ⟨"content", none, false, .transform "fold"⟩, ⟨"toll", none, false, .retrieve ""⟩] }
      (fun _ => false) (.definition (.reservedId "content")) := by
  have hcheck : tollgate.check (fun _ => false) = .ok [
      .invalidRule "toll" 0 (.ruleText (.malformed "(")), .backward "toll" "toll",
      .dangling "toll" "moat"] := rfl
  obtain ⟨hvalid, -, hpasses⟩ := check_decides tollgate fun _ => false
  obtain ⟨hindex, hlists⟩ := hpasses _ hcheck
  exact ⟨hcheck, hvalid.mp ⟨_, hcheck⟩, hindex 1 _ rfl, hlists,
    ((check_decides _ fun _ => false).2.1 _).mp rfl⟩

end Definition

end TriageFlow
