import TriageFlow.Rule.Token
import TriageFlow.Rule.Nesting
import TriageFlow.Decimal.Rounding
import TriageFlow.Fault

/-!
Reading rule texts. `!` binds closest, then at most one comparison, then `&&`, then `||`; several
operands of one connective make one list. The tokens are taken one by one, with a stack of the
groups that are still open.
-/

namespace TriageFlow.Rule

/-- The comparison that a token after an operand stands for. -/
def comparisonOf : Token → Option Comparison
  | .compare op => some op
  | .path name => if name = "contains".toList then some .contains else none
  | _ => none

/-- A group that is being read, up to the operand that stands or is due next. -/
structure Group where
  /-- The finished operands of `||`, the last one first. -/
  alternatives : List Predicate
  /-- The finished operands of `&&` after the last `||`, the last one first. -/
  conjuncts : List Predicate
  /-- The left side of a comparison whose right side is due. -/
  left : Option (Predicate × Comparison)
  /-- The negations before the operand that is due. -/
  negations : Nat

namespace Group

/-- A group of which nothing is read. -/
def fresh : Group := ⟨[], [], none, 0⟩

/-- One operand as it is, several as a list in their order; the last one is given first. -/
def gather (connect : List Predicate → Predicate) (last : Predicate) (before : List Predicate) :
    Predicate :=
  if before.isEmpty then last else connect (before.reverse ++ [last])

/-- The comparison that ends with an operand, or the operand. -/
def compared (g : Group) (operand : Predicate) : Predicate :=
  match g.left with
  | some (left, op) => .compare op left operand
  | none => operand

/-- The conjunction that ends with an operand. -/
def conjoined (g : Group) (operand : Predicate) : Predicate :=
  gather .all (g.compared operand) g.conjuncts

/-- The whole group, ending with an operand. -/
def finished (g : Group) (operand : Predicate) : Predicate :=
  gather .any (g.conjoined operand) g.alternatives

end Group

/-- How far a text is read: the groups around the innermost open one, that group, and the operand
that has just been read, if one has. -/
structure Progress where
  outer : List Group
  group : Group
  operand : Option Predicate

namespace Progress

/-- Nothing is read. -/
def start : Progress := ⟨[], .fresh, none⟩

/-- A primary is read where an operand was due. -/
def primary (s : Progress) (p : Predicate) : Progress :=
  { s with group := { s.group with negations := 0 }, operand := some (p.negate s.group.negations) }

/-- The next token where an operand is due. -/
def expectOperand (s : Progress) : Token → Option Progress
  | .not => some { s with group := { s.group with negations := s.group.negations + 1 } }
  | .opening => some ⟨s.group :: s.outer, .fresh, none⟩
  | .null => some (s.primary (.literal .null))
  | .truth b => some (s.primary (.literal (.bool b)))
  | .number numeral => some (s.primary (.literal (.float (Decimal.floatOfNumeral numeral))))
  | .string content => some (s.primary (.literal (.string (String.ofList content))))
  | .path name => some (s.primary (.field (.ofText (String.ofList name))))
  | _ => none

/-- The next token after an operand. A word that spells `contains` compares here. -/
def afterOperand (s : Progress) (p : Predicate) (token : Token) : Option Progress :=
  match comparisonOf token with
  | some op =>
    match s.group.left with
    | some _ => none
    | none => some { s with group := { s.group with left := some (p, op) }, operand := none }
  | none =>
    match token with
    | .and =>
      let conjuncts := s.group.compared p :: s.group.conjuncts
      some { s with group := ⟨s.group.alternatives, conjuncts, none, 0⟩, operand := none }
    | .or =>
      let alternatives := s.group.conjoined p :: s.group.alternatives
      some { s with group := ⟨alternatives, [], none, 0⟩, operand := none }
    | .closing =>
      match s.outer with
      | [] => none
      | group :: outer => some (primary ⟨outer, group, none⟩ (s.group.finished p))
    | _ => none

/-- The next token. -/
def step (s : Progress) (token : Token) : Option Progress :=
  match s.operand with
  | none => s.expectOperand token
  | some p => s.afterOperand p token

/-- What is read after some tokens. -/
def run : Progress → List Token → Option Progress
  | s, [] => some s
  | s, token :: rest => (s.step token).bind fun s => run s rest

/-- The predicate, if an operand has just been read and no group is open. -/
def result? (s : Progress) : Option Predicate :=
  match s.operand, s.outer with
  | some p, [] => some (s.group.finished p)
  | _, _ => none

end Progress

/-- The predicate that some tokens spell. -/
def ofTokens? (tokens : List Token) : Option Predicate :=
  (Progress.start.run tokens).bind Progress.result?

/-- The first numeral among some tokens that is too large for a number. -/
def badNumeral? (tokens : List Token) : Option (List Char) :=
  tokens.findSome? fun
    | .number numeral => if (Decimal.floatOfNumeral numeral).isFinite then none else some numeral
    | _ => none

end TriageFlow.Rule

namespace TriageFlow

/-- The predicate that a rule text spells. The nesting is looked at first, and the numerals
last. -/
def Predicate.ofText (source : String) : Except RuleTextFault Predicate :=
  let cs := source.toList
  let depth := Rule.nestingOf cs
  if ruleNestingLimit < depth then .error (.tooDeep depth)
  else
    match Rule.tokens? cs with
    | none => .error (.malformed source)
    | some tokens =>
      match Rule.ofTokens? tokens with
      | none => .error (.malformed source)
      | some p =>
        match Rule.badNumeral? tokens with
        | some numeral => .error (.badNumber (String.ofList numeral))
        | none => .ok p

end TriageFlow
