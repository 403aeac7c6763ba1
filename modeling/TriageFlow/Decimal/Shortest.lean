import TriageFlow.Decimal.Binary

/-!
The shortest decimal that reads back as a given float. Grids of multiples of `10 ^ k` are tried
from the coarse to the fine; on each the two neighbours of the value are tested, and the first
grid with a hit gives the digits. Of two hits the nearer one is taken, and of two equally near
the even one.
-/

namespace TriageFlow.Decimal

/-- The nearer of two hits on one grid, or the one hit. -/
def Binary.pick? (x : Binary) (k : Int) : Option Dec :=
  let a := x.floorAt k
  let below : Dec := ⟨a, k⟩
  let above : Dec := ⟨a + 1, k⟩
  match x.readsBack below, x.readsBack above with
  | false, false => none
  | true, false => some below
  | false, true => some above
  | true, true =>
    match x.compareToMiddle a k with
    | .lt => some below
    | .gt => some above
    | .eq => if a % 2 = 0 then some below else some above

/-- The pick of the first grid with a hit among the `count` grids from `10 ^ k` down. -/
def Binary.search (x : Binary) : Nat → Int → Option Dec
  | 0, _ => none
  | count + 1, k => (x.pick? k).or (x.search count (k - 1))

/-- The shortest decimal that reads back as the value; it has at most seventeen digits, and the
bound on the scale is at most two grids too coarse. -/
def Binary.shortest (x : Binary) : Dec :=
  (x.search 20 x.bound).getD x.exact

/-- What the search finds reads back as the value. -/
theorem Binary.readsBack_of_search {x : Binary} {count : Nat} {k : Int} {d : Dec}
    (h : x.search count k = some d) : x.readsBack d = true := by
  induction count generalizing k with
  | zero => simp [search] at h
  | succ count ih =>
    rw [search, Option.or_eq_some_iff] at h
    rcases h with h | ⟨_, h⟩
    · unfold pick? at h
      grind
    · exact ih h

end TriageFlow.Decimal
