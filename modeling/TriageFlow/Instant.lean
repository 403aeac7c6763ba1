import TriageFlow.Text.Split

/-!
Points of time, to the millisecond, and their text in the calendar of the internet date format:
`2024-01-02T03:04:05.678`, with a zone behind it. A whole second has no fraction. A clock holds
what is read off the time in the course of runs.
-/

namespace TriageFlow

/-- A point of time, in milliseconds after 1970-01-01T00:00:00 of universal time. -/
structure Instant where
  milliseconds : Nat
deriving DecidableEq

namespace Instant

/-- A number with leading zeros to a width. -/
def padded (width n : Nat) : List Char :=
  let digits := Nat.toDigits 10 n
  List.replicate (width - digits.length) '0' ++ digits

/-- The year, month and day of a day, counted from 1970-01-01. Years are taken from March on, so
that a leap day ends a year; 146097 days make 400 years. -/
def civil (day : Nat) : Nat × Nat × Nat :=
  let shifted := day + 719468
  let era := shifted / 146097
  let dayOfEra := shifted % 146097
  let yearOfEra :=
    (dayOfEra - dayOfEra / 1460 + dayOfEra / 36524 - dayOfEra / 146096) / 365
  let dayOfYear := dayOfEra - (365 * yearOfEra + yearOfEra / 4 - yearOfEra / 100)
  let shiftedMonth := (5 * dayOfYear + 2) / 153
  let dayOfMonth := dayOfYear - (153 * shiftedMonth + 2) / 5 + 1
  let month := if shiftedMonth < 10 then shiftedMonth + 3 else shiftedMonth - 9
  let year := yearOfEra + era * 400 + (if month ≤ 2 then 1 else 0)
  (year, month, dayOfMonth)

/-- Date and time of day, without a zone. -/
def civilTime (t : Instant) : List Char :=
  let second := t.milliseconds / 1000
  let (year, month, day) := civil (second / 86400)
  let ofDay := second % 86400
  let fraction := t.milliseconds % 1000
  padded 4 year ++ '-' :: padded 2 month ++ '-' :: padded 2 day ++ 'T' :: padded 2 (ofDay / 3600)
    ++ ':' :: padded 2 (ofDay / 60 % 60) ++ ':' :: padded 2 (ofDay % 60)
    ++ (if fraction = 0 then [] else '.' :: padded 3 fraction)

/-- The text with the letter of universal time. -/
def zulu (t : Instant) : String := String.ofList (t.civilTime ++ ['Z'])

/-- The text with the zero offset of universal time. -/
def withOffset (t : Instant) : String :=
  String.ofList (t.civilTime ++ ['+', '0', '0', ':', '0', '0'])

example : (Instant.mk 1704164645678).zulu = "2024-01-02T03:04:05.678Z" := by decide +kernel
example : (Instant.mk 951782400000).zulu = "2000-02-29T00:00:00Z" := by decide +kernel

end Instant

/-- What is read off the time in the course of runs. A reading belongs to the run of a trace id and
to the node that is executed after so many others. Nothing is assumed of the readings: they may
stand still, and they may go back. -/
structure Clock where
  /-- The time that the node is told when it asks for it. -/
  present : String → Nat → Instant
  /-- The time at which the execution of the node is logged. -/
  logged : String → Nat → Instant
  /-- The milliseconds that the execution of the node takes. -/
  elapsed : String → Nat → Nat
  /-- The milliseconds that the whole run takes, if it ends after so many nodes. -/
  total : String → Nat → Nat

namespace Clock

/-- The clock that stands still. -/
def standing (t : Instant) : Clock where
  present _ _ := t
  logged _ _ := t
  elapsed _ _ := 0
  total _ _ := 0

instance : Coe Instant Clock := ⟨standing⟩

end Clock

end TriageFlow
