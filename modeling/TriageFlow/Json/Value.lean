/-!
JSON values. A number is a whole number or a 64-bit float, and the two are never equal; an
object is a list of fields, kept in the order of their keys by `Fields.insert`, so that a key
stands at most once and the order is that of the code points.
-/

namespace TriageFlow.Json

/-- A number: whole, or a 64-bit float. -/
inductive Number where
  | whole (value : Int)
  | real (value : Float)
deriving Inhabited

namespace Number

/-- The float nearest to a number. -/
def toFloat : Number → Float
  | whole n => Float.ofInt n
  | real x => x

/-- Equal as written values: `1` and `1.0` differ, the two zeros do not. -/
def beq : Number → Number → Bool
  | whole a, whole b => a == b
  | real a, real b => a == b
  | _, _ => false

instance : BEq Number := ⟨beq⟩

/-- A whole number that is not negative. -/
def toNat? : Number → Option Nat
  | whole (.ofNat n) => some n
  | _ => none

end Number

/-- A JSON value. -/
inductive Value where
  | null
  | bool (value : Bool)
  | number (value : Number)
  | string (value : String)
  | array (items : List Value)
  | object (fields : List (String × Value))
deriving Inhabited

/-- The fields of an object. -/
abbrev Fields := List (String × Value)

namespace Value

/-- The whole number `n`. -/
def nat (n : Nat) : Value := .number (.whole n)

/-- The 64-bit float `x`. -/
def float (x : Float) : Value := .number (.real x)

mutual

/-- Structural equality. -/
def beq : Value → Value → Bool
  | null, null => true
  | bool a, bool b => a == b
  | number a, number b => a == b
  | string a, string b => a == b
  | array as, array bs => beqItems as bs
  | object as, object bs => beqFields as bs
  | _, _ => false

/-- Equality item by item. -/
def beqItems : List Value → List Value → Bool
  | [], [] => true
  | a :: as, b :: bs => beq a b && beqItems as bs
  | _, _ => false

/-- Equality field by field, keys included. -/
def beqFields : List (String × Value) → List (String × Value) → Bool
  | [], [] => true
  | (k, a) :: as, (l, b) :: bs => k == l && beq a b && beqFields as bs
  | _, _ => false

end

instance : BEq Value := ⟨beq⟩

end Value

/-! ## Fields -/

namespace Fields

/-- The value under a key. -/
def find? (key : String) : Fields → Option Value
  | [] => none
  | (k, v) :: rest => if k = key then some v else find? key rest

/-- Puts a field in its place, over an earlier field of the same key. -/
def insert (key : String) (value : Value) : Fields → Fields
  | [] => [(key, value)]
  | (k, v) :: rest =>
    if key = k then (key, value) :: rest
    else if key < k then (key, value) :: (k, v) :: rest
    else (k, v) :: insert key value rest

/-- The fields of a list of members: sorted, and the last member of a key counts. -/
def ofList (members : List (String × Value)) : Fields :=
  members.foldl (fun fields member => insert member.1 member.2 fields) []

/-- The fields without those of some keys. -/
def without (keys : List String) (fields : Fields) : Fields :=
  fields.filter fun field => !keys.contains field.1

theorem find?_insert_self (key : String) (value : Value) (fields : Fields) :
    find? key (insert key value fields) = some value := by
  induction fields with
  | nil => simp [insert, find?]
  | cons field rest ih =>
    obtain ⟨k, v⟩ := field
    simp only [insert]
    split
    · simp [find?]
    · split
      · simp [find?]
      · rename_i hk _
        simp [find?, Ne.symm hk, ih]

theorem find?_insert_of_ne {key other : String} (h : other ≠ key) (value : Value)
    (fields : Fields) : find? other (insert key value fields) = find? other fields := by
  induction fields with
  | nil => simp [insert, find?, h.symm]
  | cons field rest ih =>
    obtain ⟨k, v⟩ := field
    simp only [insert]
    split
    · rename_i hk
      subst hk
      simp [find?, h.symm]
    · split
      · simp [find?, h.symm]
      · simp only [find?, ih]

theorem find?_foldl_insert (key : String) (members : List (String × Value)) (fields : Fields) :
    find? key (members.foldl (fun fields member => insert member.1 member.2 fields) fields) =
      (members.reverse.lookup key).or (find? key fields) := by
  induction members generalizing fields with
  | nil => rfl
  | cons member rest ih =>
    obtain ⟨k, v⟩ := member
    rw [List.foldl_cons, ih, List.reverse_cons, List.lookup_append, Option.or_assoc,
      List.lookup_cons]
    by_cases hkey : key = k
    · rw [hkey, find?_insert_self, beq_self_eq_true]
      rfl
    · rw [find?_insert_of_ne hkey, beq_false_of_ne hkey]
      rfl

/-- The last member of a key counts. -/
theorem find?_ofList (key : String) (members : List (String × Value)) :
    find? key (ofList members) = members.reverse.lookup key := by
  rw [ofList, find?_foldl_insert, find?, Option.or_none]

end Fields

/-! ## Reading a value by kind -/

namespace Value

/-- An object of the given members. -/
def ofMembers (members : List (String × Value)) : Value := .object (Fields.ofList members)

/-- The value of a field of an object. -/
def field? (v : Value) (key : String) : Option Value :=
  match v with
  | object fields => Fields.find? key fields
  | _ => none

theorem field?_ofMembers (members : List (String × Value)) (key : String) :
    (ofMembers members).field? key = members.reverse.lookup key := Fields.find?_ofList key members

def toString? : Value → Option String
  | string s => some s
  | _ => none

def toBool? : Value → Option Bool
  | bool b => some b
  | _ => none

/-- Any number, as a float. -/
def toFloat? : Value → Option Float
  | number n => some n.toFloat
  | _ => none

/-- A whole number that is not negative. -/
def toNat? : Value → Option Nat
  | number n => n.toNat?
  | _ => none

def toItems? : Value → Option (List Value)
  | array items => some items
  | _ => none

def toFields? : Value → Option Fields
  | object fields => some fields
  | _ => none

/-- Text, or null when there is none. -/
def ofOption (text : Option String) : Value :=
  match text with
  | some s => string s
  | none => null

end Value

end TriageFlow.Json
