import Mathlib.Data.List.Basic
import TriageFlow.Settings.Environment

/-!
References to variables in a text of settings. A text is cut from left to right into references,
each with its closing brace, and characters that stand for themselves; it has one such cut
(`Cuts.unique`). Where no reference lacks its closing brace, a text is expanded by replacing those
whose variables are set, and nothing else (`expandFrom_of_cuts`). A reference without its closing
brace runs to the end of the text, is replaced too, and gains the brace if its variable is not set
(`expandFrom_open_append`).
-/

namespace TriageFlow

namespace Environment

variable {env : Environment} {text name rest tail : List Char}

/-! ## Names -/

/-- A name ends at the nearest closing brace. -/
theorem nameAhead_append (h : '}' ∉ name) (rest : List Char) :
    nameAhead (name ++ '}' :: rest) = (name, true) := by
  induction name with
  | nil => rfl
  | cons c name ih =>
    obtain ⟨hc, hname⟩ := List.ne_and_not_mem_of_not_mem_cons h
    rw [List.cons_append, nameAhead, ih hname]
    exact fun heq => hc heq.symm

/-- Without a closing brace a name runs to the end. -/
theorem nameAhead_of_not_mem (h : '}' ∉ tail) : nameAhead tail = (tail, false) := by
  induction tail with
  | nil => rfl
  | cons c tail ih =>
    obtain ⟨hc, htail⟩ := List.ne_and_not_mem_of_not_mem_cons h
    rw [nameAhead, ih htail]
    exact fun heq => hc heq.symm

theorem reference_append (name rest : List Char) :
    reference name ++ rest = '$' :: '{' :: (name ++ '}' :: rest) := by
  simp [reference]

/-- A text starts with one reference at most. -/
theorem reference_append_inj {name' rest' : List Char} (h : '}' ∉ name) (h' : '}' ∉ name')
    (heq : reference name ++ rest = reference name' ++ rest') : name = name' ∧ rest = rest' := by
  rw [reference_append, reference_append] at heq
  have htail := (List.cons.inj (List.cons.inj heq).2).2
  have hname := congrArg nameAhead htail
  rw [nameAhead_append h, nameAhead_append h'] at hname
  obtain rfl := (Prod.mk.inj hname).1
  exact ⟨rfl, (List.cons.inj (List.append_cancel_left htail)).2⟩

/-! ## Cuts -/

/-- A part of a text: a character that stands for itself, or a reference with its closing brace. -/
inductive Part where
  | plain (c : Char)
  | named (name : List Char)

/-- A part as it is written. -/
def Part.written : Part → List Char
  | plain c => [c]
  | named name => reference name

/-- A part with the value of its variable, if that is set. -/
def Part.replaced (env : Environment) : Part → List Char
  | plain c => [c]
  | named name =>
    match env.get? (String.ofList name) with
    | some value => value.toList
    | none => reference name

/-- A reference with its closing brace starts at the head of a text. -/
def Opens (text : List Char) : Prop := ∃ name rest, '}' ∉ name ∧ text = reference name ++ rest

/-- A text is cut from left to right, wherever a reference with its closing brace starts. -/
inductive Cuts : List Char → List Part → Prop
  | nil : Cuts [] []
  | plain {c : Char} {text : List Char} {parts : List Part} (closed : ¬Opens (c :: text))
      (behind : Cuts text parts) : Cuts (c :: text) (.plain c :: parts)
  | named {name text : List Char} {parts : List Part} (nearest : '}' ∉ name)
      (behind : Cuts text parts) : Cuts (reference name ++ text) (.named name :: parts)

/-- Somewhere in a text a reference starts that no closing brace follows. -/
def Dangles (text : List Char) : Prop :=
  ∃ front tail, '}' ∉ tail ∧ text = front ++ '$' :: '{' :: tail

theorem opens_cons_iff : Opens ('$' :: '{' :: rest) ↔ '}' ∈ rest := by
  constructor
  · rintro ⟨name, behind, -, heq⟩
    rw [reference_append] at heq
    rw [(List.cons.inj (List.cons.inj heq).2).2]
    exact List.mem_append_right name List.mem_cons_self
  · intro h
    obtain ⟨name, behind, rfl, hname⟩ := List.eq_append_cons_of_mem h
    exact ⟨name, behind, hname, (reference_append name behind).symm⟩

theorem Cuts.written_eq {parts : List Part} (h : Cuts text parts) :
    parts.flatMap Part.written = text := by
  induction h with
  | nil => rfl
  | plain closed behind ih => rw [List.flatMap_cons, ih]; rfl
  | named nearest behind ih => rw [List.flatMap_cons, ih]; rfl

/-- Every text has a cut. -/
theorem exists_cuts (text : List Char) : ∃ parts, Cuts text parts := by
  induction hlength : text.length using Nat.strongRecOn generalizing text with
  | _ n ih =>
    by_cases hopens : Opens text
    · obtain ⟨name, rest, hname, rfl⟩ := hopens
      obtain ⟨parts, hparts⟩ := ih rest.length (by
        rw [← hlength, reference_append]
        simp only [List.length_cons, List.length_append]
        omega) rest rfl
      exact ⟨_, .named hname hparts⟩
    · cases text with
      | nil => exact ⟨[], .nil⟩
      | cons c text =>
        obtain ⟨parts, hparts⟩ := ih text.length (hlength ▸ Nat.lt_succ_self _) text rfl
        exact ⟨_, .plain hopens hparts⟩

/-- The first part of a cut is told by the text. -/
theorem Cuts.first_cases {parts : List Part} (h : Cuts text parts) :
    (text = [] ∧ parts = []) ∨
    (∃ c rest behind, text = c :: rest ∧ parts = .plain c :: behind ∧ ¬Opens text ∧
      Cuts rest behind) ∨
    ∃ name rest behind, text = reference name ++ rest ∧ parts = .named name :: behind ∧
      '}' ∉ name ∧ Cuts rest behind := by
  cases h with
  | nil => exact .inl ⟨rfl, rfl⟩
  | plain closed behind => exact .inr (.inl ⟨_, _, _, rfl, rfl, closed, behind⟩)
  | named nearest behind => exact .inr (.inr ⟨_, _, _, rfl, rfl, nearest, behind⟩)

/-- No text has two. -/
theorem Cuts.unique {parts parts' : List Part} (h : Cuts text parts) (h' : Cuts text parts') :
    parts' = parts := by
  induction h generalizing parts' with
  | nil =>
    rcases h'.first_cases with ⟨-, rfl⟩ | ⟨_, _, _, htext, -⟩ | ⟨_, _, _, htext, -⟩
    · rfl
    · cases htext
    · cases htext
  | plain closed behind ih =>
    rcases h'.first_cases with ⟨htext, -⟩ | ⟨d, rest, parts, htext, rfl, -, hrest⟩ |
      ⟨name, rest, parts, htext, -, hname, -⟩
    · cases htext
    · obtain ⟨rfl, rfl⟩ := List.cons.inj htext
      rw [ih hrest]
    · exact absurd ⟨name, rest, hname, htext⟩ closed
  | @named name text parts nearest behind ih =>
    rcases h'.first_cases with ⟨htext, -⟩ | ⟨_, _, _, -, -, hclosed, -⟩ |
      ⟨name', rest, parts', htext, rfl, hname, hrest⟩
    · cases htext
    · exact absurd ⟨name, text, nearest, rfl⟩ hclosed
    · obtain ⟨rfl, rfl⟩ := reference_append_inj nearest hname htext
      rw [ih hrest]

/-! ## References without their closing brace -/

theorem not_dangles_nil : ¬Dangles [] := by
  rintro ⟨front, tail, -, heq⟩
  simp at heq

theorem dangles_cons_iff {c : Char} : Dangles (c :: text) ↔
    (∃ tail, c :: text = '$' :: '{' :: tail ∧ '}' ∉ tail) ∨ Dangles text := by
  constructor
  · rintro ⟨front, tail, htail, heq⟩
    cases front with
    | nil => exact .inl ⟨tail, heq, htail⟩
    | cons d front => exact .inr ⟨front, tail, htail, (List.cons.inj heq).2⟩
  · rintro (⟨tail, heq, htail⟩ | ⟨front, tail, htail, rfl⟩)
    · exact ⟨[], tail, htail, heq⟩
    · exact ⟨c :: front, tail, htail, rfl⟩

/-- Whether a reference lacks its closing brace is found from the left. -/
instance decidableDangles : DecidablePred Dangles
  | [] => .isFalse not_dangles_nil
  | c :: text =>
    have := decidableDangles text
    decidable_of_iff ((c = '$' ∧ text.head? = some '{' ∧ '}' ∉ text.tail) ∨ Dangles text) <| by
      rw [dangles_cons_iff]
      refine or_congr_left ⟨?_, ?_⟩
      · rintro ⟨rfl, hhead, htail⟩
        exact ⟨text.tail, congrArg _ (List.cons_head?_tail hhead).symm, htail⟩
      · rintro ⟨tail, heq, htail⟩
        obtain ⟨rfl, rfl⟩ := List.cons.inj heq
        exact ⟨rfl, rfl, htail⟩

/-- What stands before a text does not close its references. -/
theorem Dangles.append (front : List Char) (h : Dangles text) : Dangles (front ++ text) := by
  obtain ⟨middle, tail, htail, rfl⟩ := h
  exact ⟨front ++ middle, tail, htail, (List.append_assoc ..).symm⟩

/-- Some reference without its closing brace is the first one. -/
theorem Dangles.exists_first (h : Dangles text) : ∃ front tail, '}' ∉ tail ∧ ¬Dangles front ∧
    text = front ++ '$' :: '{' :: tail := by
  obtain ⟨front, tail, htail, rfl⟩ := h
  induction hlength : front.length using Nat.strongRecOn generalizing front tail with
  | _ n ih =>
    by_cases hfront : Dangles front
    · obtain ⟨front', tail', htail', rfl⟩ := hfront
      have hrest : '}' ∉ tail' ++ '$' :: '{' :: tail := by simp [htail', htail]
      obtain ⟨first, last, hlast, hfirst, heq⟩ := ih front'.length (by
        rw [← hlength]
        simp) front' (tail' ++ '$' :: '{' :: tail) hrest rfl
      exact ⟨first, last, hlast, hfirst, by rw [← heq]; simp⟩
    · exact ⟨front, tail, htail, hfront, rfl⟩

/-! ## Expansion -/

theorem expandFrom_eq_drop (skip : Nat) (text : List Char) :
    expandFrom env skip text = expandFrom env 0 (text.drop skip) := by
  induction skip generalizing text with
  | zero => rfl
  | succ skip ih =>
    cases text with
    | nil => rfl
    | cons c text => exact ih text

/-- A reference with its closing brace is replaced, and what follows is expanded by itself. -/
theorem expandFrom_reference (h : '}' ∉ name) (rest : List Char) :
    expandFrom env 0 (reference name ++ rest) = env.resolve name ++ expandFrom env 0 rest := by
  rw [reference_append]
  simp only [expandFrom, nameAhead_append h]
  rw [expandFrom_eq_drop]
  congr 2
  simp

/-- A reference without its closing brace is replaced with all that follows. -/
theorem expandFrom_open (h : '}' ∉ tail) :
    expandFrom env 0 ('$' :: '{' :: tail) = env.resolve tail := by
  simp only [expandFrom, nameAhead_of_not_mem h]
  rw [expandFrom_eq_drop, List.drop_eq_nil_of_le (by simp), expandFrom, List.append_nil]

/-- A character at which no reference starts stands for itself. -/
theorem expandFrom_cons {c : Char} (h : ∀ rest, c :: text ≠ '$' :: '{' :: rest) :
    expandFrom env 0 (c :: text) = c :: expandFrom env 0 text := by
  rw [expandFrom]
  exact fun rest hc htext => h rest (by rw [hc, htext])

/-- Where no reference with its closing brace starts and none without it either, none starts. -/
theorem ne_of_closed {c : Char} (hclosed : ¬Opens (c :: text)) (h : ¬Dangles (c :: text)) :
    ∀ rest, c :: text ≠ '$' :: '{' :: rest := by
  intro rest heq
  rw [heq, opens_cons_iff] at hclosed
  exact h ⟨[], rest, hclosed, heq⟩

/-- A text whose references have their closing braces is expanded part by part. -/
theorem expandFrom_of_cuts {parts : List Part} (h : Cuts text parts) (hclosed : ¬Dangles text) :
    expandFrom env 0 text = parts.flatMap (Part.replaced env) := by
  induction h with
  | nil => rfl
  | @plain c text parts closed behind ih =>
    rw [expandFrom_cons (ne_of_closed closed hclosed), ih fun h => hclosed (h.append [c])]
    rfl
  | @named name text parts nearest behind ih =>
    rw [expandFrom_reference nearest, ih fun h => hclosed (h.append (reference name))]
    rfl

/-- Nor does one start across the place where a reference without its closing brace follows. -/
theorem ne_of_closed_append {c : Char} {front : List Char}
    (h : ∀ rest, c :: front ≠ '$' :: '{' :: rest) (rest : List Char) :
    c :: (front ++ '$' :: '{' :: tail) ≠ '$' :: '{' :: rest := by
  intro heq
  obtain ⟨rfl, hbrace⟩ := List.cons.inj heq
  cases front with
  | nil => simp at hbrace
  | cons d front =>
    obtain ⟨rfl, -⟩ := List.cons.inj hbrace
    exact h front rfl

/-- What stands before the first reference without its closing brace is expanded by itself. -/
theorem expandFrom_open_append {front : List Char} (hfront : ¬Dangles front) (h : '}' ∉ tail) :
    expandFrom env 0 (front ++ '$' :: '{' :: tail) =
      expandFrom env 0 front ++ env.resolve tail := by
  obtain ⟨parts, hcuts⟩ := exists_cuts front
  induction hcuts with
  | nil => exact expandFrom_open h
  | @plain c front parts closed behind ih =>
    have hstart := ne_of_closed closed hfront
    rw [List.cons_append, expandFrom_cons (ne_of_closed_append hstart), expandFrom_cons hstart,
      ih fun h => hfront (h.append [c])]
    rfl
  | @named name front parts nearest behind ih =>
    rw [List.append_assoc, expandFrom_reference nearest, expandFrom_reference nearest,
      ih fun h => hfront (h.append (reference name)), List.append_assoc]

theorem cuts_of_not_mem (h : '}' ∉ text) : Cuts text (text.map .plain) := by
  induction text with
  | nil => exact .nil
  | cons c text ih =>
    refine .plain ?_ (ih fun hmem => h (List.mem_cons_of_mem c hmem))
    rintro ⟨name, rest, -, heq⟩
    refine h ?_
    rw [heq, reference]
    simp

/-- From a reference without its closing brace on, every character stands for itself. -/
theorem cuts_open_append {front : List Char} {parts : List Part} (hcuts : Cuts front parts)
    (hfront : ¬Dangles front) (h : '}' ∉ tail) :
    Cuts (front ++ '$' :: '{' :: tail) (parts ++ ('$' :: '{' :: tail).map .plain) := by
  induction hcuts with
  | nil => exact cuts_of_not_mem (by simp [h])
  | @plain c front parts closed behind ih =>
    refine .plain ?_ (ih fun h => hfront (h.append [c]))
    rintro ⟨name, rest, -, heq⟩
    rw [reference_append] at heq
    exact ne_of_closed_append (ne_of_closed closed hfront) _ heq
  | @named name front parts nearest behind ih =>
    rw [List.append_assoc]
    exact .named nearest (ih fun h => hfront (h.append (reference name)))

/-- Parts whose variables are not set stay as they are written. -/
theorem replaced_of_unset {parts : List Part}
    (h : ∀ name, .named name ∈ parts → env.get? (String.ofList name) = none) :
    parts.flatMap (Part.replaced env) = parts.flatMap Part.written := by
  refine List.flatMap_congr fun part hpart => ?_
  cases part with
  | plain c => rfl
  | named name => rw [Part.replaced, h name hpart]; rfl

/-- How a text is expanded, told by its cut. -/
structure ExpandsBy (env : Environment) (text : String) (parts : List Part) : Prop where
  /-- The text is cut into these parts and no others, and they make it up. -/
  cuts : ∀ parts', Cuts text.toList parts' ↔ parts' = parts
  written : parts.flatMap Part.written = text.toList
  /-- Unless a closing brace is missing, the references whose variables are set are replaced. -/
  closed : ¬Dangles text.toList → (env.expand text).toList = parts.flatMap (Part.replaced env)
  /-- If one is missing, there is a first reference without it. From there on the text becomes the
  value of the variable that all the rest names, or the rest with a closing brace. -/
  first_open : Dangles text.toList → ∃ front tail : String, text = front ++ "$\x7b" ++ tail ∧
    ¬Dangles front.toList ∧ '}' ∉ tail.toList
  opened : ∀ front tail : String, text = front ++ "$\x7b" ++ tail → ¬Dangles front.toList →
    '}' ∉ tail.toList → env.expand text =
      env.expand front ++ (env.get? tail).getD ("$\x7b" ++ tail ++ "\x7d")
  /-- With none of the variables set, the text is left as it is unless a brace is missing. -/
  unset : (∀ name, .named name ∈ parts → env.get? (String.ofList name) = none) →
    (∀ front tail : String, text = front ++ "$\x7b" ++ tail → '}' ∉ tail.toList →
      env.get? tail = none) →
    (env.expand text = text ↔ ¬Dangles text.toList)

theorem toList_expand (text : String) : (env.expand text).toList = expandFrom env 0 text.toList :=
  String.toList_ofList

theorem toList_open (front tail : String) :
    (front ++ "$\x7b" ++ tail).toList = front.toList ++ '$' :: '{' :: tail.toList := by
  rw [String.toList_append, String.toList_append, List.append_assoc]
  rfl

theorem expand_open {front tail : String} (hfront : ¬Dangles front.toList)
    (h : '}' ∉ tail.toList) : env.expand (front ++ "$\x7b" ++ tail) =
      env.expand front ++ (env.get? tail).getD ("$\x7b" ++ tail ++ "\x7d") := by
  refine String.toList_inj.mp ?_
  rw [toList_expand, toList_open, expandFrom_open_append hfront h, String.toList_append,
    toList_expand, resolve, String.ofList_toList]
  cases env.get? tail with
  | some value => rfl
  | none =>
    simp [reference, String.toList_append]

/-- A reference without its closing brace has a first occurrence, as texts. -/
theorem exists_open (h : Dangles text) : ∃ front tail : String,
    text = (front ++ "$\x7b" ++ tail).toList ∧ ¬Dangles front.toList ∧ '}' ∉ tail.toList := by
  obtain ⟨front, tail, htail, hfront, rfl⟩ := h.exists_first
  refine ⟨String.ofList front, String.ofList tail, ?_, ?_, ?_⟩
  · rw [toList_open, String.toList_ofList, String.toList_ofList]
  · rwa [String.toList_ofList]
  · rwa [String.toList_ofList]

theorem expand_of_unset {front : String} {parts : List Part} (hcuts : Cuts front.toList parts)
    (hclosed : ¬Dangles front.toList)
    (h : ∀ name, .named name ∈ parts → env.get? (String.ofList name) = none) :
    env.expand front = front := by
  refine String.toList_inj.mp ?_
  rw [toList_expand, expandFrom_of_cuts hcuts hclosed, replaced_of_unset h, hcuts.written_eq]

/-- A text that lacks a closing brace does not stay as it is with none of its variables set. -/
theorem expand_open_ne {front tail : String} {parts : List Part}
    (hcuts : Cuts (front ++ "$\x7b" ++ tail).toList parts) (hfront : ¬Dangles front.toList)
    (htail : '}' ∉ tail.toList) (hunset : env.get? tail = none)
    (h : ∀ name, .named name ∈ parts → env.get? (String.ofList name) = none) :
    env.expand (front ++ "$\x7b" ++ tail) ≠ front ++ "$\x7b" ++ tail := by
  obtain ⟨before, hbefore⟩ := exists_cuts front.toList
  rw [toList_open] at hcuts
  have hparts := hcuts.unique (cuts_open_append hbefore hfront htail)
  have hstays : env.expand front = front := expand_of_unset hbefore hfront fun name hname =>
    h name (hparts ▸ List.mem_append_left _ hname)
  rw [expand_open hfront htail, hunset, hstays]
  intro heq
  have hlength := congrArg String.length heq
  have hbrace : "\x7d".length = 1 := rfl
  simp only [Option.getD_none, String.length_append, hbrace] at hlength
  omega

/-- A text is expanded by its one cut into characters and references with their closing braces. -/
theorem expand_replaces_references (env : Environment) (text : String) :
    ∃ parts, env.ExpandsBy text parts := by
  obtain ⟨parts, hcuts⟩ := exists_cuts text.toList
  refine ⟨parts, fun parts' => ⟨hcuts.unique, fun h => h ▸ hcuts⟩, hcuts.written_eq,
    fun hclosed => (toList_expand text).trans (expandFrom_of_cuts hcuts hclosed), fun h => ?_,
    fun front tail htext hfront htail => htext ▸ expand_open hfront htail,
    fun hparts htails => ⟨fun hsame hopen => ?_, fun h => expand_of_unset hcuts h hparts⟩⟩
  · obtain ⟨front, tail, htext, hfront, htail⟩ := exists_open h
    exact ⟨front, tail, String.toList_inj.mp htext, hfront, htail⟩
  · obtain ⟨front, tail, htext, hfront, htail⟩ := exists_open hopen
    obtain rfl := String.toList_inj.mp htext
    exact expand_open_ne hcuts hfront htail (htails front tail rfl htail) hparts hsame

/-- Settings with a price in a reply, whose currency sign is followed by a brace. -/
def priceReply : String := "[replies]\nreceived = \"from $\x7b5\"\n"

/-- No variable is set, and still the price gains a brace, behind the end of the settings, which can
be read as they are written and not as they are expanded. -/
theorem priceReply_gains_brace :
    expand [] priceReply = priceReply ++ "\x7d" ∧ expand [] priceReply ≠ priceReply ∧
    (((Toml.ofText? priceReply).bind Settings.ofValue?).map fun s => s.replies.received) =
      some "from $\x7b5" ∧
    Settings.ofToml [] priceReply = .error (.config "<toml>") := by
  exact ⟨by decide +kernel, by decide +kernel, by decide +kernel, rfl⟩

/-- References side by side, one to a variable that is not set with another one in its name, and a
value that looks like a reference. -/
def greeting : String := "$\x7bA\x7d$\x7bB\x7d, $\x7bno$\x7bA\x7d $\x7bA\x7d\x7d $A"

/-- The greeting is expanded by its parts, and stays as it is where nothing is set. The rest of a
text behind an open brace is the name of a variable. -/
theorem greeting_expands :
    let env : Environment := [("A", "$\x7bB\x7d"), ("B", "x"), ("C ", "y")]
    ¬Dangles greeting.toList ∧ '}' ∉ "C ".toList ∧
    (∃ parts : List Part, (env.expand greeting).toList = parts.flatMap (Part.replaced env)) ∧
    env.expand greeting = "$\x7bB\x7dx, $\x7bno$\x7bA\x7d $\x7bB\x7d\x7d $A" ∧
    expand [] greeting = greeting ∧
    env.expand (greeting ++ "$\x7b" ++ "C ") = env.expand greeting ++ "y" := by
  intro env
  have hclosed : ¬Dangles greeting.toList := by decide +kernel
  have htail : '}' ∉ "C ".toList := by decide
  obtain ⟨parts, h⟩ := expand_replaces_references env greeting
  obtain ⟨_, hnone⟩ := expand_replaces_references [] greeting
  obtain ⟨_, hopen⟩ := expand_replaces_references env (greeting ++ "$\x7b" ++ "C ")
  exact ⟨hclosed, htail, ⟨parts, h.closed hclosed⟩, by decide +kernel,
    (hnone.unset (fun _ _ => rfl) fun _ _ _ _ => rfl).mpr hclosed,
    hopen.opened greeting "C " rfl hclosed htail⟩

end Environment

end TriageFlow
