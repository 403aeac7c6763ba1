import TriageFlow.Engine.Collaborator

/-!
Repeating requests that failed for a passing reason. The waits between attempts double from an
initial one up to a greatest one; the first success and the first lasting failure end the
attempts. Waits are those before jitter: the random factor from 0.8 to 1.2 by which each of them is
then made shorter or longer is left out.
-/

namespace TriageFlow

/-- How often and after what waits a request is repeated; times are in milliseconds. -/
structure RetryPolicy where
  maxRetries : Nat
  initialBackoff : Nat
  maxBackoff : Nat
deriving DecidableEq

/-- The policy unless configured otherwise. -/
def RetryPolicy.standard : RetryPolicy := ⟨2, 500, 8000⟩

/-- The marks of a passing failure in the message of a service. -/
def passingMarks : List String := ["429", "500", "502", "503", "timeout", "connection"]

/-- Whether a failure may pass. -/
def Fault.isPassing : Fault → Bool
  | service _ message => passingMarks.any fun mark => Text.occurs mark.toList message.toList
  | timeout _ _ => true
  | _ => false

/-- The greatest wait that can be written down. -/
def longestWait : Nat := Nat.pow 2 64 - 1

/-- The wait after the attempt of a given number, counted from zero, before jitter. -/
def RetryPolicy.backoff (p : RetryPolicy) (attempt : Nat) : Nat :=
  let wait :=
    if attempt < 64 then min (p.initialBackoff * Nat.pow 2 attempt) longestWait else longestWait
  min wait p.maxBackoff

/-- What came of repeated attempts. -/
structure Attempts (σ : Type) where
  ending : Ending Completion
  /-- The waits between the attempts, before jitter. -/
  waits : List Nat
  state : σ

namespace Generative

variable {σ : Type}

/-- Attempts from the one of a given number on, with so many retries left and so much time
gone. Nothing more is tried once the limit has passed. The time that has gone holds the waits as
they are before jitter. -/
def attempts (g : Generative σ) (p : RetryPolicy) (limit : Option Nat) (mode : Mode)
    (prompt : String) : (left attempt elapsed : Nat) → σ → Attempts σ
  | left, attempt, elapsed, s =>
    match g.complete (limit.map (· - elapsed)) mode prompt s with
    | (.never, s) => ⟨.never, [], s⟩
    | (.settled (.ok c) after, s) => ⟨.settled (.ok c) (elapsed + after), [], s⟩
    | (.settled (.error e) after, s) =>
      match left with
      | 0 => ⟨.settled (.error e) (elapsed + after), [], s⟩
      | left + 1 =>
        if e.isPassing then
          let wait := p.backoff attempt
          let elapsed := elapsed + after + wait
          if limit.any (· < elapsed) then ⟨.never, [wait], s⟩
          else
            let later := attempts g p limit mode prompt left (attempt + 1) elapsed s
            { later with waits := wait :: later.waits }
        else ⟨.settled (.error e) (elapsed + after), [], s⟩

/-- A gateway that repeats requests. -/
def retrying (g : Generative σ) (p : RetryPolicy) : Generative σ where
  name := g.name
  complete limit mode prompt s :=
    let r := g.attempts p limit mode prompt p.maxRetries 0 0 s
    (r.ending, r.state)

end Generative

end TriageFlow
