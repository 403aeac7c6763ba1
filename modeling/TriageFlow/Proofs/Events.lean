import Mathlib.Data.List.Forall2
import TriageFlow.Proofs.LegalPath

/-!
What a run tells, against its log. Between its start and its end a run gives an account of each
entry in order, what happened on the way to it (`Node.MayTell`) and what became of its node
(`Closes`), and then says whether its content was saved. The events can be read in this way
(`Reaches.exists_accounts`), and in no other (`accounts_unique`): a diagnostic names its node, and a
router that falls through, which alone ends without an event, is followed by nodes behind it.
-/

namespace TriageFlow

open Json (Value)

namespace EventKind

/-- The node on whose way a diagnostic was told. -/
def diagnosed? : EventKind → Option String
  | .ruleFailed node _ _ => some node
  | .danglingTarget node _ => some node
  | .degraded node _ _ => some node
  | _ => none

/-- Whether an event tells what became of the save. -/
def tellsSave : EventKind → Bool
  | .memorySaved => true
  | .memorySaveFailed _ => true
  | _ => false

theorem diagnosed?_of_tellsSave {kind : EventKind} (h : kind.tellsSave = true) :
    kind.diagnosed? = none := by
  cases kind with
  | memorySaved => rfl
  | memorySaveFailed fault => rfl
  | _ => cases h

end EventKind

/-- What is told of one execution of a node: what happened on the way, and what became of it. -/
structure Account where
  diagnostics : List EventKind
  closing : List EventKind

/-- The events of an account. -/
def Account.kinds (x : Account) : List EventKind := x.diagnostics ++ x.closing

/-- What may be told on the way of a node: a router tells of the rules that it passed over, a node
that asks a gateway tells at most once that it did without, and the others tell nothing. -/
def Node.MayTell (n : Node) (kinds : List EventKind) : Prop :=
  match n.kind with
  | .route _ => ∀ kind ∈ kinds, (∃ index fault, kind = .ruleFailed n.id index fault) ∨
      ∃ target, kind = .danglingTarget n.id target
  | .retrieve _ | .analyze _ | .generate _ =>
    kinds = [] ∨ ∃ service fault, kinds = [.degraded n.id service fault]
  | .transform _ | .action _ _ => kinds = []

/-- What is told of the end of a node, by its entry. -/
inductive Closes (n : Node) (a : LogEntry) : List EventKind → Prop
  | completed (plain : n.isRouter = false) (status : a.status = .success) :
      Closes n a [.nodeCompleted n.id a.elapsed]
  | failed (fault : Fault) (status : a.status = .failed)
      (output : a.output = .object [("error", .string fault.message)]) :
      Closes n a [.nodeFailed n.id fault]
  | routed (target : String) (router : n.isRouter = true) (status : a.status = .success)
      (output : a.output = .object [("target", .string target)]) :
      Closes n a [.routeTaken n.id target]
  | fellThrough (router : n.isRouter = true) (status : a.status = .success)
      (output : a.output = .null) : Closes n a []

/-- An account of an entry. -/
def Definition.Accounts (d : Definition) (a : LogEntry) (x : Account) : Prop :=
  ∃ n ∈ d.nodes, n.id = a.nodeId ∧ n.MayTell x.diagnostics ∧ Closes n a x.closing

/-- What a run tells between its start and its end: an account of each entry, and what became of
the save. -/
structure Narration where
  accounts : List Account
  saved : List EventKind

namespace Engine

variable {σ : Type}

/-- What may be told of the save: one thing if there is a memory, else nothing. -/
def TellsSave (e : Engine σ) (saved : List EventKind) : Prop :=
  if e.collaborators.memory.isSome then ∃ kind, saved = [kind] ∧ kind.tellsSave = true
  else saved = []

/-- A reading of the events of a finished run as a narration of its log. -/
structure Narrates (e : Engine σ) (r : Run) (traceId : String) (x : Narration) : Prop where
  accounts : List.Forall₂ e.definition.Accounts r.context.logs x.accounts
  saved : e.TellsSave x.saved
  events : r.events = (.runStarted e.definition.name :: (x.accounts.flatMap Account.kinds ++
    (x.saved ++ [.runFinished r.status r.steps]))).map (Event.mk traceId)

end Engine

/-! ## The account of one entry -/

namespace Engine

variable {σ : Type} {e : Engine σ}

theorem retrieve_events (e : Engine σ) (node query : String) (c : Context) (s : σ) :
    (e.retrieve node query c s).events = [] ∨
      ∃ service fault, (e.retrieve node query c s).events = [.degraded node service fault] := by
  unfold retrieve
  split
  · exact .inr ⟨_, _, rfl⟩
  · dsimp only
    split
    · exact .inl rfl
    · exact .inr ⟨_, _, rfl⟩

theorem analyze_events (e : Engine σ) (node prompt : String) (c : Context) (s : σ) :
    (e.analyze node prompt c s).events = [] ∨
      ∃ service fault, (e.analyze node prompt c s).events = [.degraded node service fault] := by
  unfold analyze
  split
  · exact .inr ⟨_, _, rfl⟩
  · dsimp only
    split
    · exact .inl rfl
    · exact .inl rfl
    · exact .inr ⟨_, _, rfl⟩

theorem generate_events (e : Engine σ) (node prompt : String) (c : Context) (s : σ) :
    (e.generate node prompt c s).events = [] ∨
      ∃ service fault, (e.generate node prompt c s).events = [.degraded node service fault] := by
  unfold generate
  split
  · exact .inr ⟨_, _, rfl⟩
  · dsimp only
    split
    · exact .inl rfl
    · exact .inr ⟨_, _, rfl⟩

theorem act_events (e : Engine σ) (action : String) (payload : Value) (c : Context) (s : σ) :
    (e.act action payload c s).events = [] := by
  unfold act
  split
  · rfl
  · rfl

theorem route_events (e : Engine σ) (node : String) (rules : List RouteRule) (c : Context)
    (s : σ) : ∀ kind ∈ (e.route node rules c s).events,
      (∃ index fault, kind = .ruleFailed node index fault) ∨
        ∃ target, kind = .danglingTarget node target := by
  intro kind hkind
  obtain ⟨diagnostic, -, rfl⟩ := List.mem_map.mp hkind
  cases diagnostic with
  | failed index fault => exact .inl ⟨index, fault, rfl⟩
  | dangling index target => exact .inr ⟨target, rfl⟩

/-- The diagnostics of an execution are those of the kind of its node. -/
theorem execute_mayTell (e : Engine σ) (n : Node) (c : Context) (s : σ) :
    n.MayTell (e.execute n c s).events := by
  unfold execute Node.MayTell
  cases n.kind with
  | transform name => rfl
  | retrieve query => exact e.retrieve_events n.id query c s
  | analyze prompt => exact e.analyze_events n.id prompt c s
  | generate prompt => exact e.generate_events n.id prompt c s
  | route rules => exact e.route_events n.id rules c s
  | action action payload => exact e.act_events action payload c s

/-- What is told of an outcome closes the account of its entry. -/
theorem closes_entryOf {r : Run} {n : Node} {x : Execution σ}
    (h : e.definition.Fits n x.outcome) :
    Closes n (e.entryOf r n x) (outcomeEvents n.id (e.entryOf r n x).elapsed x.outcome) := by
  have hstatus : (e.entryOf r n x).status = outcomeStatus x.outcome := rfl
  have houtput : (e.entryOf r n x).output = outcomeValue x.outcome := rfl
  cases hout : x.outcome with
  | error fault =>
    rw [hout] at hstatus houtput
    exact .failed fault hstatus houtput
  | ok outcome =>
    rw [hout] at h hstatus houtput
    cases h with
    | jumped hkind _ _ =>
      exact .routed _ (Node.isRouter_eq_true_iff.mpr ⟨_, hkind⟩) hstatus houtput
    | fellThrough hkind =>
      exact .fellThrough (Node.isRouter_eq_true_iff.mpr ⟨_, hkind⟩) hstatus houtput
    | gave output hplain => exact .completed hplain hstatus

/-! ## The accounts of a run -/

variable {c : Context} {s t : σ} {r : Run}

/-- The events of a run on its way are its start and an account of each entry. -/
theorem Reaches.exists_accounts (hlog : c.logs = []) (h : e.Reaches c s r t) :
    ∃ accounts, List.Forall₂ e.definition.Accounts r.context.logs accounts ∧
      r.events = (.runStarted e.definition.name :: accounts.flatMap Account.kinds).map
        (Event.mk c.traceId) := by
  induction h with
  | start =>
    refine ⟨[], ?_, rfl⟩
    rw [Run.start_context, hlog]
    exact .nil
  | @visit r t p n earlier due allowed node ih =>
    obtain ⟨accounts, haccounts, hevents⟩ := ih
    have hfits := e.execute_fits n r.context t
    generalize hx : e.execute n r.context t = x at hfits
    have haccount : e.definition.Accounts (e.entryOf r n x)
        ⟨x.events, outcomeEvents n.id (e.entryOf r n x).elapsed x.outcome⟩ :=
      ⟨n, List.mem_of_getElem? node, rfl, hx ▸ e.execute_mayTell n r.context t,
        closes_entryOf hfits⟩
    refine ⟨accounts ++ [⟨x.events, outcomeEvents n.id (e.entryOf r n x).elapsed x.outcome⟩],
      ?_, ?_⟩
    · rw [absorb_logs]
      exact List.rel_append haccounts (.cons haccount .nil)
    · have habsorb : (e.absorb r p n x).events =
          r.events ++ (x.events ++ outcomeEvents n.id (e.entryOf r n x).elapsed x.outcome).map
            (Event.mk r.context.traceId) := rfl
      rw [habsorb, hevents, earlier.origin.2.2]
      simp [Account.kinds]

theorem Reaches.traceId_of_mem_logs (hlog : c.logs = []) (h : e.Reaches c s r t) :
    ∀ a ∈ r.context.logs, a.traceId = c.traceId := by
  induction h with
  | start => simp [hlog]
  | @visit r t p n earlier due allowed node ih =>
    intro a ha
    rw [absorb_logs] at ha
    rcases List.mem_append.mp ha with ha | ha
    · exact ih a ha
    · rw [List.mem_singleton.mp ha]
      exact earlier.origin.2.2

/-- The end of a run adds what became of the save, and its end. -/
theorem finish_events (e : Engine σ) (r : Run) (s : σ) :
    ∃ saved, e.TellsSave saved ∧ (e.finish r s).1.events = r.events ++
      (saved ++ [EventKind.runFinished r.status r.steps]).map (Event.mk r.context.traceId) := by
  unfold finish save TellsSave
  cases e.collaborators.memory with
  | none => exact ⟨[], rfl, rfl⟩
  | some memory =>
    refine ⟨[_], ⟨_, rfl, ?_⟩, List.append_assoc _ [_] [_]⟩
    split
    · rfl
    · rfl

/-! ## The reading of the events -/

end Engine

/-- A list is cut in one way only between items with a property and an item without it. -/
theorem append_inj_of_head {α : Type} {P : α → Prop} {xs ys rest rest' : List α}
    (hx : ∀ x ∈ xs, P x) (hy : ∀ y ∈ ys, P y) (hrest : ∀ x ∈ rest.head?, ¬P x)
    (hrest' : ∀ x ∈ rest'.head?, ¬P x) (h : xs ++ rest = ys ++ rest') : xs = ys ∧ rest = rest' := by
  induction xs generalizing ys with
  | nil =>
    cases ys with
    | nil => exact ⟨rfl, h⟩
    | cons y ys =>
      rw [List.nil_append] at h
      exact absurd (hy y List.mem_cons_self) (hrest y (by rw [h]; rfl))
  | cons x xs ih =>
    cases ys with
    | nil =>
      rw [List.nil_append] at h
      exact absurd (hx x List.mem_cons_self) (hrest' x (by rw [← h]; rfl))
    | cons y ys =>
      rw [List.cons_append, List.cons_append] at h
      obtain ⟨rfl, htail⟩ := List.cons.inj h
      obtain ⟨rfl, hrest⟩ := ih (fun x hx' => hx x (List.mem_cons_of_mem _ hx'))
        (fun y hy' => hy y (List.mem_cons_of_mem _ hy')) htail
      exact ⟨rfl, hrest⟩

/-- A diagnostic names its node. -/
theorem Node.MayTell.diagnosed? {n : Node} {kinds : List EventKind} (h : n.MayTell kinds) :
    ∀ kind ∈ kinds, kind.diagnosed? = some n.id := by
  intro kind hkind
  have ofGateway (h : kinds = [] ∨ ∃ service fault, kinds = [.degraded n.id service fault]) :
      kind.diagnosed? = some n.id := by
    rcases h with rfl | ⟨service, fault, rfl⟩
    · cases hkind
    · rw [List.mem_singleton.mp hkind]
      rfl
  have ofNothing (h : kinds = []) : kind.diagnosed? = some n.id := by
    rw [h] at hkind
    cases hkind
  unfold MayTell at h
  cases hk : n.kind with
  | transform name => rw [hk] at h; exact ofNothing h
  | retrieve query => rw [hk] at h; exact ofGateway h
  | analyze prompt => rw [hk] at h; exact ofGateway h
  | generate prompt => rw [hk] at h; exact ofGateway h
  | action action payload => rw [hk] at h; exact ofNothing h
  | route rules =>
    rw [hk] at h
    rcases h kind hkind with ⟨index, fault, rfl⟩ | ⟨target, rfl⟩
    · rfl
    · rfl

namespace Closes

variable {n : Node} {a : LogEntry} {kinds kinds' rest : List EventKind}

/-- An end is told by one event that is no diagnostic, but for a router that falls through. -/
theorem cases_head (h : Closes n a kinds) :
    (n.isRouter = true ∧ a.output = .null ∧ kinds = []) ∨
      ∃ kind, kinds = [kind] ∧ kind.diagnosed? = none := by
  cases h with
  | completed _ _ => exact .inr ⟨_, rfl, rfl⟩
  | failed _ _ _ => exact .inr ⟨_, rfl, rfl⟩
  | routed _ _ _ _ => exact .inr ⟨_, rfl, rfl⟩
  | fellThrough router _ output => exact .inl ⟨router, output, rfl⟩

/-- A diagnostic is the first thing told from the end of an entry on only if nothing is told of that
end. -/
theorem head_of_diagnosed (h : Closes n a kinds) {kind : EventKind} {id : String}
    (hkind : kind ∈ (kinds ++ rest).head?) (hid : kind.diagnosed? = some id) :
    a.output = .null ∧ kind ∈ rest.head? := by
  rcases h.cases_head with ⟨-, hnull, rfl⟩ | ⟨closing, rfl, hplain⟩
  · exact ⟨hnull, hkind⟩
  · obtain rfl := Option.some.inj hkind
    rw [hplain] at hid
    cases hid

/-- An entry says how many events tell of its end. -/
theorem length_eq (h : Closes n a kinds) (h' : Closes n a kinds') :
    kinds.length = kinds'.length := by
  rcases h.cases_head with ⟨hrouter, hnull, rfl⟩ | ⟨kind, rfl, -⟩
  · cases h' with
    | completed plain _ => rw [hrouter] at plain; cases plain
    | failed _ _ output => rw [hnull] at output; cases output
    | routed _ _ _ output => rw [hnull] at output; cases output
    | fellThrough _ _ _ => rfl
  · rcases h'.cases_head with ⟨hrouter, hnull, rfl⟩ | ⟨kind', rfl, -⟩
    · cases h with
      | completed plain _ => rw [hrouter] at plain; cases plain
      | failed _ _ output => rw [hnull] at output; cases output
      | routed _ _ _ output => rw [hnull] at output; cases output
    · rfl

end Closes

namespace Definition

variable {d : Definition} {registered : String → Bool} {log : List LogEntry} {a : LogEntry}
  {accounts accounts' : List Account} {rest rest' : List EventKind}

/-- Where nothing is told of the end of an entry, the node of the next one is the one behind. -/
theorem indexOf?_of_follows (hd : d.Valid registered) {b : LogEntry} {p : Nat}
    (hfollows : d.Follows a b) (hp : d.indexOf? a.nodeId = some p) (hnull : a.output = .null) :
    d.indexOf? b.nodeId = some (p + 1) := by
  obtain ⟨n, hn, hnid⟩ := hd.indexOf?_eq_some_iff.mp hp
  obtain ⟨m, hm, hmid⟩ := hfollows.onward p n hn hnid (.inr hnull)
  exact hd.indexOf?_eq_some_iff.mpr ⟨m, hm, hmid⟩

/-- If what comes after the diagnostics of an entry starts with a diagnostic, it is one of a node
behind that of the entry. -/
theorem diagnosed_behind (hd : d.Valid registered) {x : Account} {p : Nat}
    (hchain : (a :: log).IsChain d.Follows) (haccount : d.Accounts a x)
    (haccounts : List.Forall₂ d.Accounts log accounts)
    (hrest : ∀ kind ∈ rest.head?, kind.diagnosed? = none) (hp : d.indexOf? a.nodeId = some p)
    {kind : EventKind} {id : String}
    (hkind : kind ∈ (x.closing ++ (accounts.flatMap Account.kinds ++ rest)).head?)
    (hid : kind.diagnosed? = some id) : ∃ q, d.indexOf? id = some q ∧ p < q := by
  induction haccounts generalizing a x p with
  | nil =>
    obtain ⟨n, -, -, -, hcloses⟩ := haccount
    obtain ⟨-, hkind⟩ := hcloses.head_of_diagnosed hkind hid
    rw [hrest kind hkind] at hid
    cases hid
  | @cons b y log accounts hnext _ ih =>
    obtain ⟨n, -, -, -, hcloses⟩ := haccount
    obtain ⟨hnull, hkind⟩ := hcloses.head_of_diagnosed hkind hid
    have hb := indexOf?_of_follows hd (List.isChain_cons_cons.mp hchain).1 hp hnull
    rw [List.flatMap_cons, Account.kinds, List.append_assoc, List.append_assoc] at hkind
    cases hdiagnostics : y.diagnostics with
    | cons first others =>
      obtain ⟨m, -, hmid, htold, -⟩ := hnext
      rw [hdiagnostics] at hkind htold
      obtain rfl := Option.some.inj hkind
      rw [htold.diagnosed? _ List.mem_cons_self, hmid] at hid
      obtain rfl := Option.some.inj hid
      exact ⟨p + 1, hb, Nat.lt_succ_self p⟩
    | nil =>
      rw [hdiagnostics, List.nil_append] at hkind
      obtain ⟨q, hq, hlt⟩ := ih hchain.tail hnext hb hkind
      exact ⟨q, hq, Nat.lt_of_succ_lt hlt⟩

/-- After the diagnostics of an entry comes no other one of its node. -/
theorem not_diagnosed_after (hd : d.Valid registered) {x : Account}
    (hchain : (a :: log).IsChain d.Follows) (haccount : d.Accounts a x)
    (haccounts : List.Forall₂ d.Accounts log accounts)
    (hrest : ∀ kind ∈ rest.head?, kind.diagnosed? = none) :
    ∀ kind ∈ (x.closing ++ (accounts.flatMap Account.kinds ++ rest)).head?,
      ¬kind.diagnosed? = some a.nodeId := by
  intro kind hkind hid
  have ⟨n, hn, hnid, _⟩ := haccount
  obtain ⟨p, hp⟩ := List.mem_iff_getElem?.mp hn
  have hindex : d.indexOf? a.nodeId = some p := hd.indexOf?_eq_some_iff.mpr ⟨n, hp, hnid⟩
  obtain ⟨q, hq, hlt⟩ := diagnosed_behind hd hchain haccount haccounts hrest hindex hkind hid
  rw [hindex] at hq
  obtain rfl := Option.some.inj hq
  exact Nat.lt_irrefl p hlt

/-- The events of a log can be cut into accounts of its entries in one way only. -/
theorem accounts_unique (hd : d.Valid registered) (hchain : log.IsChain d.Follows)
    (haccounts : List.Forall₂ d.Accounts log accounts)
    (haccounts' : List.Forall₂ d.Accounts log accounts')
    (hrest : ∀ kind ∈ rest.head?, kind.diagnosed? = none)
    (hrest' : ∀ kind ∈ rest'.head?, kind.diagnosed? = none)
    (h : accounts.flatMap Account.kinds ++ rest = accounts'.flatMap Account.kinds ++ rest') :
    accounts = accounts' ∧ rest = rest' := by
  induction haccounts generalizing accounts' with
  | nil =>
    cases haccounts'
    exact ⟨rfl, h⟩
  | @cons a x log accounts haccount haccounts ih =>
    cases haccounts' with
    | @cons _ x' _ accounts' haccount' haccounts' =>
      rw [List.flatMap_cons, List.flatMap_cons, Account.kinds, Account.kinds] at h
      simp only [List.append_assoc] at h
      have hafter := not_diagnosed_after hd hchain haccount haccounts hrest
      have hafter' := not_diagnosed_after hd hchain haccount' haccounts' hrest'
      obtain ⟨n, hn, hnid, htold, hcloses⟩ := haccount
      obtain ⟨n', hn', hnid', htold', hcloses'⟩ := haccount'
      obtain rfl := hd.node_inj hn hn' (hnid.trans hnid'.symm)
      rw [← hnid] at hafter hafter'
      obtain ⟨hdiagnostics, h⟩ :=
        append_inj_of_head htold.diagnosed? htold'.diagnosed? hafter hafter' h
      obtain ⟨hclosing, h⟩ := List.append_inj h (hcloses.length_eq hcloses')
      obtain ⟨rfl, hrest⟩ := ih hchain.tail haccounts' h
      obtain ⟨diagnostics, closing⟩ := x
      obtain ⟨diagnostics', closing'⟩ := x'
      obtain rfl : diagnostics = diagnostics' := hdiagnostics
      obtain rfl : closing = closing' := hclosing
      exact ⟨rfl, hrest⟩

end Definition

namespace Engine

variable {σ : Type} {e : Engine σ}

/-- What is told at the end of a run is no diagnostic. -/
theorem TellsSave.head_not_diagnosed {saved : List EventKind} (h : e.TellsSave saved)
    (status : RunStatus) (steps : Nat) :
    ∀ kind ∈ (saved ++ [EventKind.runFinished status steps]).head?, kind.diagnosed? = none := by
  intro kind hkind
  unfold TellsSave at h
  split at h
  · obtain ⟨told, rfl, htold⟩ := h
    obtain rfl := Option.some.inj hkind
    exact EventKind.diagnosed?_of_tellsSave htold
  · subst h
    obtain rfl := Option.some.inj hkind
    rfl

/-- A finished run with a legal log is narrated in one way only. -/
theorem Narrates.unique {registered : String → Bool} (hd : e.definition.Valid registered)
    {r : Run} {traceId : String} (hpath : e.definition.LegalPath r.context.logs) {x y : Narration}
    (hx : e.Narrates r traceId x) (hy : e.Narrates r traceId y) : x = y := by
  have hinjective : Function.Injective (Event.mk traceId) := fun _ _ h => (Event.mk.inj h).2
  have hkinds := List.map_injective_iff.mpr hinjective (hx.events.symm.trans hy.events)
  obtain ⟨haccounts, hend⟩ := Definition.accounts_unique hd hpath.follows hx.accounts hy.accounts
    (hx.saved.head_not_diagnosed _ _) (hy.saved.head_not_diagnosed _ _) (List.cons.inj hkinds).2
  obtain ⟨accounts, saved⟩ := x
  obtain ⟨accounts', saved'⟩ := y
  obtain rfl : accounts = accounts' := haccounts
  obtain rfl : saved = saved' := List.append_cancel_right hend
  rfl

/-- The events of a run are a narration of its log, in one way only if the definition passes its
check, and every event and every entry bears the trace id of the run. -/
theorem events_narrate_log (e : Engine σ) (input : Value) (traceId : String) (s : σ) :
    (∃ x, e.Narrates (e.run input traceId s).1 traceId x) ∧
    (∀ registered warnings, e.definition.check registered = .ok warnings →
      ∀ x y, e.Narrates (e.run input traceId s).1 traceId x →
        e.Narrates (e.run input traceId s).1 traceId y → x = y) ∧
    (∀ event ∈ (e.run input traceId s).1.events, event.traceId = traceId) ∧
    ∀ a ∈ (e.run input traceId s).1.context.logs, a.traceId = traceId := by
  obtain ⟨r, t, phase, hr, hrun⟩ := e.runFrom_eq_finish (.start input traceId) s
  obtain ⟨accounts, haccounts, hevents⟩ := hr.exists_accounts rfl
  obtain ⟨saved, hsaved, hfinish⟩ := e.finish_events { r with phase := phase } t
  have hnarrates : e.Narrates (e.run input traceId s).1 traceId ⟨accounts, saved⟩ := by
    refine ⟨?_, hsaved, ?_⟩
    · rw [run, hrun, finish_context]
      exact haccounts
    · rw [run, hrun, hfinish, finish_steps, Run.status_congr (e.finish_phase _ t), hevents,
        hr.origin.2.2, ← List.map_append, List.cons_append]
      rfl
  refine ⟨⟨_, hnarrates⟩, ?_, ?_, ?_⟩
  · intro registered warnings h x y hx hy
    have hd := (Definition.check_eq_ok_iff.mp h).1
    refine Narrates.unique hd ?_ hx hy
    rw [run, hrun, finish_context]
    have hpath : e.definition.LegalPath r.context.logs := hr.legalPath hd rfl
    exact hpath
  · intro event hevent
    rw [hnarrates.events] at hevent
    obtain ⟨kind, -, rfl⟩ := List.mem_map.mp hevent
    rfl
  · rw [run, hrun, finish_context]
    exact hr.traceId_of_mem_logs rfl

/-- A lobby whose router trips over a missing record and falls through to a node that looks up
earlier content in vain. -/
def lobby : Engine Unit where
  definition := ⟨"lobby", [
    ⟨"sort", none, false, .route [⟨.tree (.field ⟨"input", ["kind"]⟩), "sort"⟩]⟩,
    ⟨"seen", none, true, .retrieve "{{content}}"⟩]⟩
  collaborators :=
    { generative := none
      memory := some ⟨fun _ s => (.never, s), fun _ _ s => (.settled (.ok ()) 0, s)⟩
      actions := none }
  transforms := []
  replies := .standard
  maxSteps := 2
  timeout := 0
  now := .standing ⟨0⟩

/-- Two diagnostics with a silent end between them are told apart by their nodes. -/
theorem lobby_events_narrate_log :
    lobby.definition.check lobby.transforms.contains = .ok [.backward "sort" "sort"] ∧
    (∃ x, lobby.Narrates (lobby.run .null "trace" ()).1 "trace" x ∧
      ∀ y, lobby.Narrates (lobby.run .null "trace" ()).1 "trace" y → x = y) ∧
    (lobby.run .null "trace" ()).1.events = [.runStarted "lobby",
      .ruleFailed "sort" 0 (.rule (.undefinedParent "kind" ⟨"input", []⟩)),
      .degraded "seen" "memory" (.timeout "memory" 0), .nodeCompleted "seen" 0, .memorySaved,
      .runFinished .completed 2].map (Event.mk "trace") := by
  have hcheck : lobby.definition.check lobby.transforms.contains =
      .ok [.backward "sort" "sort"] := rfl
  obtain ⟨⟨x, hx⟩, hunique, -⟩ := events_narrate_log lobby .null "trace" ()
  exact ⟨hcheck, ⟨x, hx, fun y hy => hunique _ _ hcheck x y hx hy⟩, rfl⟩

end Engine

end TriageFlow
