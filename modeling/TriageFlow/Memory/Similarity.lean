/-!
The similarity of two vectors: the cosine of the angle between them, in 32-bit arithmetic from
the first component to the last. Vectors of different lengths, empty ones and null vectors have
similarity zero.
-/

namespace TriageFlow

/-- A vector of 32-bit floats. -/
abbrev Vector32 := List Float32

/-- The scalar product of two vectors and their squared lengths, on top of given sums. -/
def sumProducts : Vector32 → Vector32 → (dot left right : Float32) → Float32 × Float32 × Float32
  | x :: xs, y :: ys, dot, left, right =>
    sumProducts xs ys (dot + x * y) (left + x * x) (right + y * y)
  | _, _, dot, left, right => (dot, left, right)

/-- The similarity of two vectors. -/
def similarity (a b : Vector32) : Float32 :=
  if a.length ≠ b.length ∨ a.isEmpty then 0
  else
    let (dot, left, right) := sumProducts a b 0 0 0
    let size := left.sqrt * right.sqrt
    if size == 0 then 0 else dot / size

end TriageFlow
