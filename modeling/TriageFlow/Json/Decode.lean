import TriageFlow.Json.Value

/-!
Reading records from values. A record is written as an object, or as an array of its fields in
their declared order; fields that are not known are passed over, and a field may be left out only
where it has a default. A null is a value like any other, except for an optional field.
-/

namespace TriageFlow.Json

/-- The values of the fields of a record in their declared order; an array gives the first ones
and must not have more items than there are fields. -/
def slots? (keys : List String) : Value → Option (List (Option Value))
  | .object fields => some (keys.map fun key => Fields.find? key fields)
  | .array items =>
    if items.length ≤ keys.length then
      some (items.map some ++ List.replicate (keys.length - items.length) none)
    else none
  | _ => none

/-- The same, where an array must give the first `least` fields. -/
def slotsFrom? (least : Nat) (keys : List String) (v : Value) : Option (List (Option Value)) :=
  match v with
  | .array items => if least ≤ items.length then slots? keys v else none
  | v => slots? keys v

/-- A field that must be there. -/
def required {α : Type} (read : Value → Option α) : Option Value → Option α
  | some v => read v
  | none => none

/-- A field that has a default. -/
def withDefault {α : Type} (fallback : α) (read : Value → Option α) : Option Value → Option α
  | some v => read v
  | none => some fallback

/-- An optional field: absent and null are the same. -/
def optional {α : Type} (read : Value → Option α) : Option Value → Option (Option α)
  | some .null => some none
  | some v => (read v).map some
  | none => some none

namespace Value

/-- A whole number below a bound. -/
def toNatBelow? (bound : Nat) (v : Value) : Option Nat :=
  v.toNat?.bind fun n => if n < bound then some n else none

/-- A number of 32 bits without sign. -/
def toNat32? : Value → Option Nat := toNatBelow? (Nat.pow 2 32)

/-- A number of 64 bits without sign. -/
def toNat64? : Value → Option Nat := toNatBelow? (Nat.pow 2 64)

/-- The 32-bit float nearest to a number. -/
def toFloat32? : Value → Option Float32
  | number (.whole n) => some (Float32.ofInt n)
  | number (.real x) => some x.toFloat32
  | _ => none

/-- A list of values of one kind. -/
def toListOf? {α : Type} (read : Value → Option α) : Value → Option (List α)
  | array items => items.mapM read
  | _ => none

/-- The list of the values of one kind under all keys. -/
def toMapOf? {α : Type} (read : Value → Option α) : Value → Option (List (String × α))
  | object fields => fields.mapM fun field => (read field.2).map (Prod.mk field.1)
  | _ => none

mutual

/-- A value whose floats are finite: the others become null. -/
def finite : Value → Value
  | number (.real x) => if x.isFinite then number (.real x) else null
  | array items => array (finiteItems items)
  | object fields => object (finiteFields fields)
  | v => v

/-- The items of an array, each made finite. -/
def finiteItems : List Value → List Value
  | [] => []
  | v :: rest => finite v :: finiteItems rest

/-- The fields of an object, each made finite. -/
def finiteFields : List (String × Value) → List (String × Value)
  | [] => []
  | (k, v) :: rest => (k, finite v) :: finiteFields rest

end

end Value

end TriageFlow.Json
